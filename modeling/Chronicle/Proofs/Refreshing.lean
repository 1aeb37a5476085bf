import Chronicle.Proofs.Notices

/-!
# What a submission does to conflicts that were pending

A submission that names each record once either notices a conflict of a record, in one turn, or
leaves or removes the one that is pending. So a conflict that is reported again is refreshed, unless
its producer sends its former story earlier and without the record (`Env.submit_refreshes`), and a
conflict that the submission has nothing to do with stays as it is (`Env.submit_spares`).
-/

namespace Chronicle

/-- Only items and attributes are sent with a story. -/
theorem Conflict.Stands.kind_ne_story {conflict : Conflict} {store : Store}
    (stands : conflict.Stands store) {story : EntityId}
    (sentWith : conflict.parent.map Parent.story = some story) : conflict.kind ≠ .story := by
  intro isStory
  have parented := stands.parented
  obtain ⟨parent, given, _⟩ := Option.map_eq_some_iff.mp sentWith
  rw [isStory, given] at parented
  cases parented

/-! ## Turns before the one that judges a record -/

namespace Submission

variable {submission : Submission} {name : Kind × EntityId}

/-- The turns before the one that judges a record are those of the stories before its own, and
some of its own story. -/
theorem earlier_turns (once : (submission.mentions.map Mention.name).Nodup)
    {earlier later : List Turn} {bundle : StoryBundle} {mention : Mention}
    (split : submission.turns = earlier ++ .judge bundle mention :: later) :
    ∃ own, own ⊆ bundle.turns ∧
      earlier = (submission.before mention.name).flatMap StoryBundle.turns ++ own := by
  obtain ⟨sent, judged⟩ := judged_at split
  obtain ⟨first, last, stories⟩ := List.append_of_mem sent
  obtain ⟨own, rest, turns⟩ := List.append_of_mem (StoryBundle.judge_mem_turns.mpr ⟨rfl, judged⟩)
  have first_eq := before_of_split once stories (StoryBundle.mem_mentions_of_judged judged)
  have again : submission.turns =
      (first.flatMap StoryBundle.turns ++ own) ++
        .judge bundle mention :: (rest ++ last.flatMap StoryBundle.turns) := by
    rw [Submission.turns, stories, List.flatMap_append, List.flatMap_cons, turns]
    simp only [List.append_assoc, List.cons_append]
  have absent {others after : List Turn}
      (split : submission.turns = others ++ .judge bundle mention :: after) {turn : Turn}
      (elsewhere : turn ∈ others ∨ turn ∈ after) : turn ≠ .judge bundle mention := by
    rintro rfl
    exact name_ne_elsewhere once split elsewhere rfl rfl
  have same := (List.append_cons_inj_of_notMem
    (fun isEarlier => absent split (Or.inl isEarlier) rfl)
    (fun isLater => absent split (Or.inr isLater) rfl)).mp (split.symm.trans again)
  refine ⟨own, ?_, by rw [first_eq, same.1]⟩
  rw [turns]
  exact List.subset_append_left own _

/-- Whether a submission withdraws a conflict before it comes to the record: its producer has set
the conflict, and the story that this came with is sent earlier and without the record. -/
def WithdrawsFirst (submission : Submission) (conflict : Conflict) : Prop :=
  conflict.scope = submission.scope ∧
    ∃ other ∈ submission.before conflict.name, conflict.parent.map Parent.story = some other.id

instance (submission : Submission) (conflict : Conflict) :
    Decidable (submission.WithdrawsFirst conflict) := by
  unfold WithdrawsFirst
  infer_instance

/-- A conflict that is not withdrawn first is left by all turns before the one that judges its
record. -/
theorem leaves_earlier_iff (once : (submission.mentions.map Mention.name).Nodup)
    {earlier later : List Turn} {bundle : StoryBundle} {mention : Mention}
    (split : submission.turns = earlier ++ .judge bundle mention :: later) {store : Store}
    {conflict : Conflict} (stands : conflict.Stands store) (named : conflict.name = mention.name) :
    (∀ turn ∈ earlier, turn.Leaves submission.scope conflict) ↔
      ¬ submission.WithdrawsFirst conflict := by
  obtain ⟨own, inStory, same⟩ := earlier_turns once split
  rw [← named] at same
  constructor
  · rintro leaves ⟨set, other, isBefore, sentWith⟩
    have member := stands.kind_ne_story sentWith
    have dropped : Turn.drop other conflict.kind ∈ earlier := by
      rw [same]
      refine List.mem_append_left _ (List.mem_flatMap.mpr ⟨other, isBefore, ?_⟩)
      exact StoryBundle.drop_mem_turns.mpr ⟨rfl, member⟩
    have sent := leaves _ dropped rfl set sentWith
    rw [StoryBundle.mem_memberIds_iff member] at sent
    exact (before_unnamed isBefore).2 sent
  · intro kept turn listed
    cases turn with
    | judge other judged =>
        intro here
        exact absurd (here.trans named) (name_ne_elsewhere once split (Or.inl listed) rfl)
    | drop other kind =>
        rintro rfl set sentWith
        have inTurns : Turn.drop other conflict.kind ∈ submission.turns := by
          rw [split]
          exact List.mem_append_left _ listed
        obtain ⟨sent, member⟩ := drop_mem_turns.mp inTurns
        rw [same, List.mem_append] at listed
        rcases listed with isBefore | isOwn
        · obtain ⟨story, storyBefore, inOther⟩ := List.mem_flatMap.mp isBefore
          obtain ⟨rfl, _⟩ := StoryBundle.drop_mem_turns.mp inOther
          exact absurd ⟨set, other, storyBefore, sentWith⟩ kept
        · -- its own story is sent with the record
          obtain ⟨rfl, _⟩ := StoryBundle.drop_mem_turns.mp (inStory isOwn)
          rw [StoryBundle.mem_memberIds_iff member]
          exact List.mem_map.mpr ⟨mention, StoryBundle.mem_mentions_of_judged (judged_at split).2,
            named.symm⟩

/-- A conflict that came with the story that sends its record again is not withdrawn first. -/
theorem not_withdrawsFirst (once : (submission.mentions.map Mention.name).Nodup)
    {bundle : StoryBundle} (sent : bundle ∈ submission.stories) {mention : Mention}
    (mentioned : mention ∈ bundle.mentions) {conflict : Conflict}
    (named : mention.name = conflict.name)
    (parent : ∀ story, conflict.parent.map Parent.story = some story → bundle.id = story) :
    ¬ submission.WithdrawsFirst conflict := by
  rintro ⟨_, other, isBefore, sentWith⟩
  obtain ⟨otherSent, unnamed⟩ := before_unnamed isBefore
  obtain rfl := story_eq_of_name once sent otherSent List.mem_cons_self List.mem_cons_self
    (Prod.ext rfl (parent _ sentWith))
  exact unnamed (List.mem_map.mpr ⟨mention, mentioned, named⟩)

end Submission

/-! ## Conflicts that are reported again -/

namespace Env

variable {env : Env} {submission : Submission} {store judged : Store}

/-- What is noticed for a record continues the conflict that was pending for it, unless that is
withdrawn first; then it begins anew. -/
theorem Notice.refreshes (notice : env.Notice submission store judged)
    (registered : env.registry = .standard) (disputed : store.Disputed)
    (accepted : ∀ turn ∈ submission.turns, turn.Accepted)
    (once : (submission.mentions.map Mention.name).Nodup) {pending : Conflict}
    (found : store.conflicts.get? notice.mention.name = some pending) :
    (¬ submission.WithdrawsFirst pending → notice.next.Continues pending) ∧
    (submission.WithdrawsFirst pending →
      notice.next.firstStored = notice.row.content ∧ notice.next.createdAt = env.now) := by
  have kept := notice.before_eq registered disputed accepted once
  rw [found] at kept
  have first := Submission.leaves_earlier_iff once notice.split (disputed.stands _ pending found)
    (disputed.sound.name_eq found)
  constructor
  · intro notFirst
    refine notice.notes.continues pending ?_
    rw [kept, Option.filter, if_pos (decide_eq_true (first.mpr notFirst))]
  · intro withdrawn
    refine notice.notes.begins ?_
    rw [kept, Option.filter, if_neg]
    rw [decide_eq_true_eq, first]
    exact not_not_intro withdrawn

/-- A conflict that is pending for a record is continued by the one that is reported for it again,
unless the submission withdraws it first. If it does, the conflict begins anew: with what is stored
by now, and at the time of the submission. -/
theorem submit_refreshes (registered : env.registry = .standard)
    (reachable : Reachable .standard store)
    (once : (submission.mentions.map Mention.name).Nodup) {pending : Conflict}
    (listed : pending ∈ store.conflicts.values) {conflicts : List ConflictSummary}
    (rejected : (env.submit submission store).1 = .error (.conflicting conflicts))
    {summary : ConflictSummary} (reported : summary ∈ conflicts)
    (same : summary.name = pending.name) :
    ∃ next, (env.submit submission store).2.conflict? pending.kind pending.entity = some next ∧
      summary.conflict = next.id ∧
      (¬ submission.WithdrawsFirst pending → next.Continues pending) ∧
      (submission.WithdrawsFirst pending →
        next.firstStored = summary.stored ∧ next.createdAt = env.now) := by
  have disputed := (Trail.of_run reachable).disputed
  obtain ⟨_, answers, judges, rfl⟩ :=
    (submit_eq_conflicting registered).mp (Prod.ext rejected rfl)
  obtain ⟨_, told, rfl⟩ := List.mem_filterMap.mp reported
  obtain ⟨firsts, others, split⟩ := List.append_of_mem told
  obtain ⟨notice, _, _, rfl⟩ := judges.exists_notice registered disputed split
  have named : pending.name = notice.mention.name := same.symm.trans notice.summary_name
  obtain ⟨key, found⟩ := (Dict.mem_values_iff _).mp listed
  rw [← disputed.sound.name_eq found, named] at found
  refine ⟨notice.next, ?_, rfl,
    notice.refreshes registered disputed judges.turns_accepted once found⟩
  rw [Store.conflict?, show (pending.kind, pending.entity) = notice.mention.name from named]
  exact notice.pending registered disputed judges.turns_accepted once

end Env

/-- An item as it is sent by who has seen its first title. -/
def Bundle.otherItem : Bundle := ⟨⟨⟨1⟩⟩, some 1, ⟨.ofList [("title", .text "other")], .empty⟩⟩

/-- New stories that are sent with their items. -/
def Submission.sending (scope : Scope) (stories : List (EntityId × List Bundle)) : Submission :=
  ⟨scope, "collector", stories.map fun story =>
    ⟨story.1, none, ⟨.ofList [("title", .text "story")], .empty⟩, story.2, []⟩⟩

/-- A store with an item that was renamed, then sent under another title with a story, and renamed
once more. -/
def Store.withContestedItem : Store :=
  .following ⟨.standard, 3, 0⟩
    [.commit .newsItem ⟨⟨1⟩⟩ (some ⟨.ofList [("title", .text "draft")], .empty⟩)
        ⟨"editor", .direct⟩,
      .commit .newsItem ⟨⟨1⟩⟩ (some ⟨.ofList [("title", .text "final")], .empty⟩)
        ⟨"editor", .direct⟩,
      .submit (.sending "feed" [(⟨⟨2⟩⟩, [.otherItem])]),
      .commit .newsItem ⟨⟨1⟩⟩ (some ⟨.ofList [("title", .text "last")], .empty⟩)
        ⟨"editor", .direct⟩]

theorem exists_contestedItem :
    ∃ pending, Store.withContestedItem.conflict? .newsItem ⟨⟨1⟩⟩ = some pending ∧
      pending ∈ Store.withContestedItem.conflicts.values ∧ pending.name = (.newsItem, ⟨⟨1⟩⟩) ∧
      pending.scope = "feed" := by
  have pending : (Store.withContestedItem.conflict? .newsItem ⟨⟨1⟩⟩).map
      (fun conflict => (conflict.name, conflict.scope)) =
        some ((.newsItem, ⟨⟨1⟩⟩), "feed") := by decide +kernel
  obtain ⟨conflict, found, told⟩ := Option.map_eq_some_iff.mp pending
  obtain ⟨named, set⟩ := Prod.mk.inj told
  exact ⟨conflict, found, (Dict.mem_values_iff _).mpr ⟨_, found⟩, named, set⟩

/-- The conflict of the item goes on when the item is sent with another story before its own one is
sent without it. -/
theorem submit_refreshes_moved_item :
    Reachable .standard .withContestedItem ∧
    ((Submission.sending "feed" [(⟨⟨3⟩⟩, [.otherItem]), (⟨⟨2⟩⟩, [])]).mentions.map
      Mention.name).Nodup ∧
    ∃ pending ∈ Store.withContestedItem.conflicts.values, ∃ conflicts,
      (Env.submit ⟨.standard, 3, 0⟩ (.sending "feed" [(⟨⟨3⟩⟩, [.otherItem]), (⟨⟨2⟩⟩, [])])
        .withContestedItem).1 = .error (.conflicting conflicts) ∧
      ∃ summary ∈ conflicts, summary.name = pending.name ∧
        ∃ next, (Env.submit ⟨.standard, 3, 0⟩
            (.sending "feed" [(⟨⟨3⟩⟩, [.otherItem]), (⟨⟨2⟩⟩, [])]) .withContestedItem).2.conflict?
            pending.kind pending.entity = some next ∧
          summary.conflict = next.id ∧ next.Continues pending := by
  have reachable : Reachable .standard .withContestedItem := reachable_following ⟨.standard, 3, 0⟩ _
  have once : ((Submission.sending "feed" [(⟨⟨3⟩⟩, [.otherItem]), (⟨⟨2⟩⟩, [])]).mentions.map
      Mention.name).Nodup := by decide
  have notFirst : ∀ pending ∈ Store.withContestedItem.conflicts.values,
      ¬ (Submission.sending "feed" [(⟨⟨3⟩⟩, [.otherItem]), (⟨⟨2⟩⟩, [])]).WithdrawsFirst
        pending := by decide +kernel
  have reports : Env.Reports ⟨.standard, 3, 0⟩
      (.sending "feed" [(⟨⟨3⟩⟩, [.otherItem]), (⟨⟨2⟩⟩, [])]) .withContestedItem
        (.newsItem, ⟨⟨1⟩⟩) := by decide +kernel
  obtain ⟨pending, _, listed, named, _⟩ := exists_contestedItem
  obtain ⟨conflicts, rejected, summary, told, toldNamed⟩ := reports
  have same := toldNamed.trans named.symm
  obtain ⟨next, found, id, continues, _⟩ :=
    Env.submit_refreshes rfl reachable once listed rejected told same
  exact ⟨reachable, once, pending, listed, conflicts, rejected, summary, told, same, next, found, id,
    continues (notFirst pending listed)⟩

/-- In the other sequence the conflict is dropped and begins anew, so it is not true that a conflict
that is reported again always goes on. -/
theorem not_submit_refreshes_in_place :
    ¬ ∀ (env : Env) (store : Store) (submission : Submission) (pending : Conflict)
      (conflicts : List ConflictSummary) (summary : ConflictSummary),
      env.registry = .standard → Reachable .standard store →
      (submission.mentions.map Mention.name).Nodup → pending ∈ store.conflicts.values →
      (env.submit submission store).1 = .error (.conflicting conflicts) → summary ∈ conflicts →
      summary.name = pending.name →
      ∃ next, (env.submit submission store).2.conflict? pending.kind pending.entity = some next ∧
        next.id = pending.id ∧ next.firstStored = pending.firstStored ∧
        next.createdAt = pending.createdAt := by
  intro inPlace
  have reachable : Reachable .standard .withContestedItem := reachable_following ⟨.standard, 3, 0⟩ _
  have once : ((Submission.sending "feed" [(⟨⟨2⟩⟩, []), (⟨⟨3⟩⟩, [.otherItem])]).mentions.map
      Mention.name).Nodup := by decide
  have reports : Env.Reports ⟨.standard, 3, 0⟩
      (.sending "feed" [(⟨⟨2⟩⟩, []), (⟨⟨3⟩⟩, [.otherItem])]) .withContestedItem
        (.newsItem, ⟨⟨1⟩⟩) := by decide +kernel
  have apart : ((Env.submit ⟨.standard, 3, 0⟩
        (.sending "feed" [(⟨⟨2⟩⟩, []), (⟨⟨3⟩⟩, [.otherItem])]) .withContestedItem).2.conflict?
        .newsItem ⟨⟨1⟩⟩).map Conflict.id ≠
      (Store.withContestedItem.conflict? .newsItem ⟨⟨1⟩⟩).map Conflict.id := by decide +kernel
  obtain ⟨pending, here, listed, named, _⟩ := exists_contestedItem
  obtain ⟨conflicts, rejected, summary, told, toldNamed⟩ := reports
  obtain ⟨next, found, same, _⟩ := inPlace _ _ _ pending conflicts summary rfl reachable once listed
    rejected told (toldNamed.trans named.symm)
  obtain ⟨kind, entity⟩ := Prod.mk.inj named
  rw [kind, entity] at found
  rw [found, here] at apart
  exact apart (congrArg some same)

/-! ## Conflicts that a submission has nothing to do with -/

/-- Whether a conflict with this identifier is pending. -/
def Store.Pending (store : Store) (id : ConflictId) : Prop :=
  ∃ conflict ∈ store.conflicts.values, conflict.id = id

/-- What a submission may do to a conflict that was pending. -/
structure Env.Spares (env : Env) (submission : Submission) (store : Store) (pending : Conflict) :
    Prop where
  /-- What another producer has set goes on, and stays as it is if its record is not reported. -/
  foreign : pending.scope ≠ submission.scope →
    ∃ next ∈ (env.submit submission store).2.conflicts.values, next.Continues pending ∧
      (next ≠ pending → env.Reports submission store pending.name)
  /-- What the producer has set itself is removed only if the record is named and not reported, or
  if the story of an item or attribute is sent without it. -/
  own : pending.scope = submission.scope →
    ¬ (env.submit submission store).2.Pending pending.id →
      (pending.name ∈ submission.mentions.map Mention.name ∧
        ¬ env.Reports submission store pending.name) ∨
      pending.kind ≠ .story ∧ ∃ bundle ∈ submission.stories,
        pending.parent.map Parent.story = some bundle.id ∧
          pending.name ∉ bundle.mentions.map Mention.name
  /-- If neither the record nor its story is named, the conflict stays as it is. -/
  unnamed : pending.name ∉ submission.mentions.map Mention.name →
    (∀ bundle ∈ submission.stories, pending.parent.map Parent.story ≠ some bundle.id) →
      pending ∈ (env.submit submission store).2.conflicts.values

/-- A turn that does not leave a conflict is of the producer that has set it, and judges its record
or is about its story, which is sent without it. -/
theorem Turn.not_leaves {submission : Submission} {conflict : Conflict} {turn : Turn}
    (listed : turn ∈ submission.turns)
    (removes : ¬ turn.Leaves submission.scope conflict) :
    conflict.scope = submission.scope ∧
      (conflict.name ∈ submission.mentions.map Mention.name ∨
        conflict.kind ≠ .story ∧ ∃ bundle ∈ submission.stories,
          conflict.parent.map Parent.story = some bundle.id ∧
            conflict.name ∉ bundle.mentions.map Mention.name) := by
  cases turn with
  | judge bundle mention =>
      obtain ⟨named, set⟩ := Classical.not_imp.mp removes
      obtain ⟨sent, judged⟩ := Submission.judge_mem_turns.mp listed
      exact ⟨not_not.mp set, Or.inl (List.mem_map.mpr ⟨mention,
        Submission.mem_mentions sent (StoryBundle.mem_mentions_of_judged judged), named⟩)⟩
  | drop bundle kind =>
      obtain ⟨rfl, removes⟩ := Classical.not_imp.mp removes
      obtain ⟨set, removes⟩ := Classical.not_imp.mp removes
      obtain ⟨sentWith, unsent⟩ := Classical.not_imp.mp removes
      obtain ⟨sent, member⟩ := Submission.drop_mem_turns.mp listed
      rw [StoryBundle.mem_memberIds_iff member] at unsent
      exact ⟨set, Or.inr ⟨member, bundle, sent, sentWith, unsent⟩⟩

namespace Env

variable {env : Env} {submission : Submission} {store judged : Store} {pending : Conflict}

theorem Spares.of_still (still : pending ∈ (env.submit submission store).2.conflicts.values) :
    env.Spares submission store pending where
  foreign _ := ⟨pending, still, .refl pending, fun changed => absurd rfl changed⟩
  own _ gone := absurd ⟨pending, still, rfl⟩ gone
  unnamed _ _ := still

/-- A conflict that one of the turns does not leave is spared, if its record is not reported. -/
theorem Spares.of_not_leaves {turn : Turn} (listed : turn ∈ submission.turns)
    (removes : ¬ turn.Leaves submission.scope pending)
    (unreported : ¬ env.Reports submission store pending.name) :
    env.Spares submission store pending := by
  obtain ⟨set, cause⟩ := Turn.not_leaves listed removes
  refine ⟨fun foreign => absurd set foreign, fun _ _ => ?_, fun unnamed storyUnnamed => ?_⟩
  · exact cause.imp (fun named => ⟨named, unreported⟩) id
  · rcases cause with named | ⟨_, bundle, sent, sentWith, _⟩
    · exact absurd named unnamed
    · exact absurd sentWith (storyUnnamed bundle sent)

/-- The conflict that was pending for a record is spared, if another one is noticed for it. -/
theorem Notice.spares (notice : env.Notice submission store judged)
    (registered : env.registry = .standard) (disputed : store.Disputed)
    (accepted : ∀ turn ∈ submission.turns, turn.Accepted)
    (once : (submission.mentions.map Mention.name).Nodup)
    (found : store.conflicts.get? notice.mention.name = some pending)
    (table : (env.submit submission store).2.conflicts = judged.conflicts)
    (reported : env.Reports submission store pending.name) :
    env.Spares submission store pending := by
  have placed : notice.next ∈ (env.submit submission store).2.conflicts.values := by
    rw [table]
    exact (Dict.mem_values_iff _).mpr ⟨_, notice.pending registered disputed accepted once⟩
  have goesOn := (notice.refreshes registered disputed accepted once found).1
  refine ⟨?_, ?_, ?_⟩
  · intro foreign
    exact ⟨notice.next, placed, goesOn fun withdrawn => foreign withdrawn.1, fun _ => reported⟩
  · intro _ gone
    by_cases withdrawn : submission.WithdrawsFirst pending
    · obtain ⟨_, other, isBefore, sentWith⟩ := withdrawn
      obtain ⟨sent, unsent⟩ := Submission.before_unnamed isBefore
      exact Or.inr ⟨(disputed.stands _ pending found).kind_ne_story sentWith, other, sent, sentWith,
        unsent⟩
    · exact absurd ⟨notice.next, placed, (goesOn withdrawn).id_eq⟩ gone
  · intro unnamed
    obtain ⟨sent, judged⟩ := Submission.judged_at notice.split
    exact absurd (List.mem_map.mpr ⟨notice.mention, Submission.mem_mentions sent
      (StoryBundle.mem_mentions_of_judged judged), (disputed.sound.name_eq found).symm⟩) unnamed

/-- A submission that names each record once spares every conflict that it has nothing to do
with, whether it is accepted or not. -/
theorem submit_spares (registered : env.registry = .standard)
    (reachable : Reachable .standard store)
    (once : (submission.mentions.map Mention.name).Nodup)
    (listed : pending ∈ store.conflicts.values) : env.Spares submission store pending := by
  have disputed := (Trail.of_run reachable).disputed
  obtain ⟨key, found⟩ := (Dict.mem_values_iff _).mp listed
  cases disputed.sound.name_eq found
  obtain ⟨same, _⟩ | ⟨answers, judged, judges, table, reports⟩ :=
    submit_judged registered disputed
  · -- a submission that is refused changes nothing
    exact .of_still (by rwa [same])
  obtain ⟨notice, named, told⟩ | ⟨untold, left⟩ :=
    judges.noticed_or_left registered disputed pending.name
  · rw [← named] at found
    exact notice.spares registered disputed judges.turns_accepted once found table
      ((reports _).mpr ⟨_, told, notice.summary_name.trans named⟩)
  have unreported : ¬ env.Reports submission store pending.name := by
    rw [reports]
    rintro ⟨summary, told, named⟩
    exact untold summary told named
  by_cases stays : ∀ turn ∈ submission.turns, turn.Leaves submission.scope pending
  · rw [found, Option.filter, if_pos (decide_eq_true stays)] at left
    refine .of_still ?_
    rw [table]
    exact (Dict.mem_values_iff _).mpr ⟨_, left⟩
  · obtain ⟨turn, removes⟩ := Classical.not_forall.mp stays
    obtain ⟨inTurns, removes⟩ := Classical.not_imp.mp removes
    exact .of_not_leaves inTurns removes unreported

end Env

/-- What one producer has set stays when another sends the story without the item. -/
theorem submit_spares_contested_item :
    Reachable .standard .withContestedItem ∧
    ((Submission.sending "wire" [(⟨⟨2⟩⟩, [])]).mentions.map Mention.name).Nodup ∧
    ∃ pending ∈ Store.withContestedItem.conflicts.values, pending.scope = "feed" ∧
      Env.Spares ⟨.standard, 3, 0⟩ (.sending "wire" [(⟨⟨2⟩⟩, [])]) .withContestedItem pending := by
  have reachable : Reachable .standard .withContestedItem := reachable_following ⟨.standard, 3, 0⟩ _
  have once : ((Submission.sending "wire" [(⟨⟨2⟩⟩, [])]).mentions.map Mention.name).Nodup := by
    decide
  obtain ⟨pending, _, listed, _, set⟩ := exists_contestedItem
  exact ⟨reachable, once, pending, listed, set, Env.submit_spares rfl reachable once listed⟩

end Chronicle
