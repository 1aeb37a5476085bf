import Chronicle.Proofs.Content.Agreement
import Chronicle.Proofs.Refreshing

/-!
# What counts as the same submission

A conflict that is noticed again is left alone if it holds what was sent already, and gets the new
incoming side otherwise (`Env.take_pending`). What was sent for the record is compared as it counts,
by its digest, but the story that it came with is compared as it was sent. So an item or attribute
that is sent again leaves its conflict untouched exactly if its story is repeated to the letter
(`Env.submit_holds_verbatim`): an explicit null or another sequence of items is enough to refresh it.
-/

namespace Chronicle

open Descriptor (standard)

/-! ## Noticing again -/

/-- A conflict with what a story sends for its record as the new incoming side. -/
def Conflict.refreshed (conflict : Conflict) (now : Int64) (scope : Scope) (bundle : StoryBundle)
    (mention : Mention) (row : EntityRow) : Conflict :=
  { conflict with
    scope := scope
    base := mention.sent.base
    current := row.version
    incoming := mention.sent.content
    digest := (standard mention.kind).digest mention.sent.content
    parent := bundle.parentFor mention.kind
    updatedAt := now }

/-- A conflict after what a story sends for its record has been noticed. -/
def Conflict.noticed (conflict : Conflict) (now : Int64) (scope : Scope) (bundle : StoryBundle)
    (mention : Mention) (row : EntityRow) : Conflict :=
  if conflict.holds scope ((standard mention.kind).digest mention.sent.content)
      (bundle.parentFor mention.kind) then conflict
  else conflict.refreshed now scope bundle mention row

namespace Env

variable {env : Env} {scope : Scope} {store after judged : Store}
  {answer : Option ConflictSummary} {submission : Submission} {bundle : StoryBundle}
  {mention : Mention} {row : EntityRow} {pending : Conflict}

/-- A turn that notices a conflict of a record for which one is pending changes that one alone. -/
theorem take_pending (registered : env.registry = .standard) (disputed : store.Disputed)
    (accepted : (standard mention.kind).check mention.sent.content = .ok ())
    (told : mention.divergent? store = some row)
    (here : store.conflicts.get? mention.name = some pending)
    (taken : env.take scope (.judge bundle mention) store = .ok (answer, after)) :
    after.conflicts = store.conflicts.insert mention.name
      (pending.noticed env.now scope bundle mention row) := by
  obtain ⟨kind, started, next, _, notes⟩ := take_told registered disputed accepted told taken
  cases holds : pending.holds scope ((standard mention.kind).digest mention.sent.content)
      (bundle.parentFor mention.kind) with
  | true =>
      rw [take_held registered started disputed.rows accepted told kind here holds] at taken
      cases taken
      rw [Conflict.noticed, if_pos holds, Dict.insert_eq_self here]
  | false =>
      rw [Conflict.noticed, if_neg (Bool.eq_false_iff.mp holds)]
      obtain ⟨_, _, _, noticed⟩ := take_notices registered disputed.rows accepted told taken
      obtain ⟨_, sent⟩ := mention
      cases kind
      change store.conflicts.get? (row.kind, sent.id) = some pending at here
      obtain ⟨_, now, known, clock, noticed⟩ := noticeConflict_eq_ok noticed
      cases (descriptor_standard registered row.kind).symm.trans known
      obtain ⟨rfl, _⟩ := clock_eq_ok.mp clock
      obtain ⟨other, found, same, _⟩ | ⟨other, _, found, rfl, refreshed, _⟩ | ⟨_, absent, _⟩ :=
        noticed
      · cases here.symm.trans found
        exact absurd same (Bool.eq_false_iff.mp holds)
      · cases here.symm.trans found
        obtain ⟨_, _, stored, kept, rfl⟩ := Store.refreshConflict_eq_ok.mp refreshed
        cases disputed.eq_of_conflictWithId? here kept
        have named : (pending.kind, pending.entity) = (row.kind, sent.id) :=
          disputed.sound.name_eq here
        have parent := (disputed.stands _ pending here).parentFor_or bundle
        rw [(disputed.sound.keyed _ pending here).1] at parent
        dsimp only [Store.setConflict]
        rw [parent, named]
        rfl
      · cases here.symm.trans absent

/-- What is noticed for a record whose conflict is not withdrawn first is that conflict, noticed
again. -/
theorem Notice.next_eq (notice : env.Notice submission store judged)
    (registered : env.registry = .standard) (disputed : store.Disputed)
    (accepted : ∀ turn ∈ submission.turns, turn.Accepted)
    (once : (submission.mentions.map Mention.name).Nodup)
    (found : store.conflicts.get? notice.mention.name = some pending)
    (stays : ¬ submission.WithdrawsFirst pending) :
    notice.next =
      pending.noticed env.now submission.scope notice.bundle notice.mention notice.row := by
  have kept := notice.before_eq registered disputed accepted once
  rw [found, Option.filter, if_pos (decide_eq_true ((Submission.leaves_earlier_iff once notice.split
    (disputed.stands _ pending found) (disputed.sound.name_eq found)).mpr stays))] at kept
  have keptRecords := inTurn_take_keepsRecords notice.start
  have table := take_pending registered (inTurn_take_disputed registered disputed notice.start)
    (accepted _ notice.listed) ((keptRecords.divergent?_eq _).trans notice.told) kept notice.taken
  have placed := notice.notes.placed
  rw [table, Dict.get?_insert_self] at placed
  exact (Option.some.inj placed).symm

/-- After a submission that reports the conflict of a record again, and does not withdraw it first,
it is pending as it was noticed again. -/
theorem submit_notices_again (registered : env.registry = .standard) (disputed : store.Disputed)
    (once : (submission.mentions.map Mention.name).Nodup) (sent : bundle ∈ submission.stories)
    (mentioned : mention ∈ bundle.mentions)
    (found : store.conflicts.get? mention.name = some pending)
    (stays : ¬ submission.WithdrawsFirst pending)
    (reports : env.Reports submission store mention.name) :
    ∃ row, mention.divergent? store = some row ∧
      (env.submit submission store).2.conflicts.get? mention.name =
        some (pending.noticed env.now submission.scope bundle mention row) := by
  obtain ⟨_, unreported⟩ | ⟨answers, judged, judges, table, reported⟩ :=
    submit_judged registered disputed
  · exact absurd reports (unreported mention.name)
  obtain ⟨summary, told, named⟩ := (reported mention.name).mp reports
  obtain ⟨firsts, others, split⟩ := List.append_of_mem told
  obtain ⟨notice, _, _, rfl⟩ := judges.exists_notice registered disputed split
  -- the record is named once, so this is the mention that was sent with the story
  obtain ⟨noticeSent, noticeJudged⟩ := Submission.judged_at notice.split
  have noticeMentioned := StoryBundle.mem_mentions_of_judged noticeJudged
  have same := notice.summary_name.symm.trans named
  obtain rfl := Submission.story_eq_of_name once noticeSent sent noticeMentioned mentioned same
  obtain rfl := Submission.mention_eq_of_name once
    (Submission.mem_mentions sent noticeMentioned) (Submission.mem_mentions sent mentioned) same
  refine ⟨notice.row, notice.told, ?_⟩
  rw [table, notice.pending registered disputed judges.turns_accepted once,
    notice.next_eq registered disputed judges.turns_accepted once found stays]

/-- A producer that sends an item or attribute again as it counts, with the same story, is told of
the conflict again. It is left untouched exactly if the story was repeated to the letter; otherwise
its incoming side is replaced, although nothing may count as changed. -/
theorem submit_holds_verbatim (registered : env.registry = .standard)
    (reachable : Reachable .standard store)
    (once : (submission.mentions.map Mention.name).Nodup)
    (listed : pending ∈ store.conflicts.values) (own : pending.scope = submission.scope)
    {parent : Parent} (member : pending.parent = some parent)
    (sent : bundle ∈ submission.stories) (story : bundle.id = parent.story)
    (mentioned : mention ∈ bundle.mentions) (named : mention.name = pending.name)
    (same : (standard mention.kind).normal mention.sent.content =
      (standard mention.kind).normal pending.incoming)
    (reports : env.Reports submission store mention.name) :
    ∃ row, store.live? mention.sent.id = some row ∧
      (env.submit submission store).2.conflict? pending.kind pending.entity =
        some (if bundle.proposed = parent.content then pending
          else pending.refreshed env.now submission.scope bundle mention row) ∧
      ((env.submit submission store).2.conflict? pending.kind pending.entity = some pending ↔
        bundle.proposed = parent.content) := by
  have disputed := (Trail.of_run reachable).disputed
  obtain ⟨key, found⟩ := (Dict.mem_values_iff _).mp listed
  rw [← disputed.sound.name_eq found, ← named] at found
  have stands := disputed.stands _ pending found
  have kind : pending.kind = mention.kind := congrArg Prod.fst named.symm
  have isMember : pending.kind ≠ .story := by
    have sentWith : pending.parent.map Parent.story = some parent.story := by
      rw [member]
      rfl
    exact stands.kind_ne_story sentWith
  -- the story is the one that the record is sent with now, so it drops nothing before
  have stays : ¬ submission.WithdrawsFirst pending := by
    refine Submission.not_withdrawsFirst once sent mentioned named fun other sentWith => ?_
    rw [member] at sentWith
    exact story.trans (Option.some.inj sentWith)
  obtain ⟨row, told, after⟩ :=
    submit_notices_again registered disputed once sent mentioned found stays reports
  have sentWith : bundle.parentFor mention.kind = some ⟨bundle.id, bundle.proposed⟩ := by
    rw [kind] at isMember
    cases member : mention.kind with
    | story => exact absurd member isMember
    | newsItem => rfl
    | attr => rfl
  have held : pending.holds submission.scope
      ((standard mention.kind).digest mention.sent.content) (bundle.parentFor mention.kind) = true ↔
      bundle.proposed = parent.content := by
    rw [Conflict.holds_iff, stands.digested, kind, Descriptor.digest_congr same, member, sentWith,
      Option.some.injEq, story]
    obtain ⟨_, content⟩ := parent
    simp [own, eq_comm]
  have result : (env.submit submission store).2.conflict? pending.kind pending.entity =
      some (if bundle.proposed = parent.content then pending
        else pending.refreshed env.now submission.scope bundle mention row) := by
    rw [Store.conflict?, show (pending.kind, pending.entity) = mention.name from named.symm, after,
      Conflict.noticed]
    simp only [held]
  refine ⟨row, (Mention.divergent?_eq_some_iff.mp told).1, result, ?_⟩
  rw [result, Option.some.injEq]
  constructor
  · intro untouched
    by_contra other
    rw [if_neg other] at untouched
    have kept := congrArg Conflict.parent untouched
    rw [member] at kept
    exact other (congrArg Parent.content (Option.some.inj (sentWith.symm.trans kept)))
  · intro repeated
    rw [if_pos repeated]

end Env

/-- A store with a tag that was renamed, and then sent under another name with a story. -/
def Store.withMisnamedTag : Store :=
  .following ⟨.standard, 3, 0⟩
    [.commit .attr ⟨⟨1⟩⟩ (some ⟨.ofList [("key", .text "draft")], .empty⟩) ⟨"editor", .direct⟩,
      .commit .attr ⟨⟨1⟩⟩ (some ⟨.ofList [("key", .text "final")], .empty⟩) ⟨"editor", .direct⟩,
      .submit (.naming [(1, "other")])]

/-- The same submission with an explicit null in the story. -/
def Submission.paddedNaming (tags : List (Nat × String)) : Submission :=
  let naming := Submission.naming tags
  { naming with stories := naming.stories.map fun bundle =>
      { bundle with content := bundle.content.setField "description" .null } }

theorem exists_misnamedTag :
    ∃ pending ∈ Store.withMisnamedTag.conflicts.values, pending.name = (.attr, ⟨⟨1⟩⟩) ∧
      pending.scope = "feed" ∧ pending.updatedAt = 0 ∧
      pending.incoming = ⟨.ofList [("key", .text "other")], .empty⟩ ∧
      pending.parent = some ⟨⟨⟨2⟩⟩, ⟨.ofList [("title", .text "story")],
        .ofList [("news_items", [])]⟩⟩ := by
  have pending : Store.withMisnamedTag.conflicts.values.map (fun conflict =>
      (conflict.name, conflict.scope, conflict.updatedAt, conflict.incoming, conflict.parent)) =
      [((.attr, ⟨⟨1⟩⟩), "feed", 0, ⟨.ofList [("key", .text "other")], .empty⟩,
        some ⟨⟨⟨2⟩⟩, ⟨.ofList [("title", .text "story")], .ofList [("news_items", [])]⟩⟩)] := by
    decide +kernel
  obtain ⟨conflict, values, told⟩ := List.map_eq_singleton_iff.mp pending
  simp only [Prod.mk.injEq] at told
  exact ⟨conflict, by rw [values]; exact List.mem_singleton_self conflict, told⟩

/-- The name is refused again, and the conflict is left untouched. -/
theorem submit_holds_verbatim_misnamed_tag :
    Reachable .standard .withMisnamedTag ∧
    ∃ pending ∈ Store.withMisnamedTag.conflicts.values,
      (Env.submit ⟨.standard, 3, 5⟩ (.naming [(1, "other")]) .withMisnamedTag).2.conflict?
        pending.kind pending.entity = some pending := by
  have reachable : Reachable .standard .withMisnamedTag := reachable_following ⟨.standard, 3, 0⟩ _
  have sent : Mention.mk .attr ⟨⟨⟨1⟩⟩, some 1, ⟨.ofList [("key", .text "other")], .empty⟩⟩ ∈
      (Submission.naming [(1, "other")]).mentions := by decide
  obtain ⟨bundle, isStory, mentioned⟩ := List.mem_flatMap.mp sent
  cases List.mem_singleton.mp isStory
  have reports : Env.Reports ⟨.standard, 3, 5⟩ (.naming [(1, "other")]) .withMisnamedTag
      (.attr, ⟨⟨1⟩⟩) := by decide +kernel
  obtain ⟨pending, listed, named, own, _, incoming, parent⟩ := exists_misnamedTag
  obtain ⟨_, _, _, untouched⟩ := Env.submit_holds_verbatim rfl reachable (by decide) listed own
    parent isStory rfl mentioned named.symm (by rw [incoming]) reports
  exact ⟨reachable, pending, listed, untouched.mpr (by decide)⟩

/-- With an explicit null in the story the conflict is refreshed, so it is not true that what counts
as the same leaves it untouched. -/
theorem not_submit_holds_normal :
    ¬ ∀ (env : Env) (store : Store) (submission : Submission) (bundle : StoryBundle)
      (mention : Mention) (pending : Conflict) (parent : Parent),
      env.registry = .standard → Reachable .standard store →
      (submission.mentions.map Mention.name).Nodup → pending ∈ store.conflicts.values →
      pending.scope = submission.scope → pending.parent = some parent →
      bundle ∈ submission.stories → bundle.id = parent.story → mention ∈ bundle.mentions →
      mention.name = pending.name →
      (standard mention.kind).normal mention.sent.content =
        (standard mention.kind).normal pending.incoming →
      (standard .story).normal bundle.proposed = (standard .story).normal parent.content →
      env.Reports submission store mention.name →
      (env.submit submission store).2.conflict? pending.kind pending.entity = some pending := by
  intro untouched
  have reachable : Reachable .standard .withMisnamedTag := reachable_following ⟨.standard, 3, 0⟩ _
  have reports : Env.Reports ⟨.standard, 3, 5⟩ (.paddedNaming [(1, "other")]) .withMisnamedTag
      (.attr, ⟨⟨1⟩⟩) := by decide +kernel
  have refreshed : ((Env.submit ⟨.standard, 3, 5⟩ (.paddedNaming [(1, "other")])
      .withMisnamedTag).2.conflict? .attr ⟨⟨1⟩⟩).map Conflict.updatedAt = some 5 := by
    decide +kernel
  obtain ⟨pending, listed, named, own, noticed, incoming, parent⟩ := exists_misnamedTag
  have kept := untouched ⟨.standard, 3, 5⟩ _ (.paddedNaming [(1, "other")])
    ⟨⟨⟨2⟩⟩, none, ⟨.ofList [("title", .text "story"), ("description", .null)], .empty⟩, [],
      [⟨⟨⟨1⟩⟩, some 1, ⟨.ofList [("key", .text "other")], .empty⟩⟩]⟩
    ⟨.attr, ⟨⟨⟨1⟩⟩, some 1, ⟨.ofList [("key", .text "other")], .empty⟩⟩⟩ pending _
    rfl reachable (by decide) listed own parent (by decide) rfl (by decide) named.symm
    (by rw [incoming]) (by decide) reports
  obtain ⟨kind, entity⟩ := Prod.mk.inj named
  rw [kind, entity] at kept
  rw [kept, Option.map_some, noticed] at refreshed
  exact absurd refreshed (by decide)

end Chronicle
