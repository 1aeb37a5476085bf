import Chronicle.Proofs.Judgement
import Chronicle.Proofs.Locality

/-!
# Stores that differ in what is pending

Two stores agree if they have the same records, snapshots and link rows, whatever conflicts are
pending in them. Commits do not look at conflicts, so each of them goes the same way in both stores
(`Env.apply_alike`). Judging does look at them, and writes them; but whether a mention is told, and
which stored record is told with it, is the same (`Env.judge_alike`). So pending conflicts have no
influence on what is written (`Reachable.pending_ignored`).
-/

namespace Chronicle

open Descriptor (standard)

/-! ## Stores that agree -/

/-- Two stores have the same records, snapshots and link rows. -/
structure Store.Agrees (first second : Store) : Prop where
  entities : second.entities = first.entities
  snapshots : second.snapshots = first.snapshots
  links : second.links = first.links

namespace Store.Agrees

variable {first second : Store}

theorem eq (agrees : first.Agrees second) :
    second = { first with
      places := second.places, conflicts := second.conflicts, supply := second.supply } := by
  obtain ⟨entities, snapshots, links⟩ := agrees
  cases second
  cases entities
  cases snapshots
  cases links
  rfl

/-- What does not look at the other tables reads the same. -/
theorem reads {α : Type} (agrees : first.Agrees second) (read : Store → α)
    (blind : ∀ places conflicts supply, read { first with
      places := places, conflicts := conflicts, supply := supply } = read first) :
    read second = read first := by
  rw [agrees.eq, blind]

theorem row?_eq (agrees : first.Agrees second) (id : EntityId) : second.row? id = first.row? id :=
  agrees.reads (fun store => store.row? id) fun _ _ _ => rfl

theorem of_kept {firstAfter secondAfter : Store} (agrees : first.Agrees second)
    (kept : first.KeepsRecords firstAfter) (otherKept : second.KeepsRecords secondAfter) :
    firstAfter.Agrees secondAfter := by
  rw [kept, otherKept]
  exact ⟨agrees.entities, agrees.snapshots, agrees.links⟩

/-- Stores that agree cannot be told apart by any records. -/
theorem on (agrees : first.Agrees second) (within : EntityId → Prop) :
    first.AgreesOn within second :=
  ⟨fun id _ => agrees.row?_eq id, fun _ _ _ _ => by rw [agrees.snapshots],
    fun _ _ _ _ _ => by rw [agrees.links]⟩

/-- Stores that agree on all records agree. -/
theorem of_on (agrees : first.AgreesOn (fun _ => True) second) : first.Agrees second :=
  ⟨agrees.tables_eq.1, agrees.tables_eq.2.1, agrees.tables_eq.2.2⟩

end Store.Agrees

/-! ## Commits -/

/-- Two answers are the same refusal, or the same result with stores that agree. -/
abbrev SameAnswer {α : Type} (first second : Except Refusal (α × Store)) : Prop :=
  Alike Eq (Alike.Reads (fun result => result) Store.Agrees) first second

namespace Env

variable (env : Env) {first second : Store}

theorem apply_alike (agrees : first.Agrees second) (kind : Kind) (id : EntityId)
    (proposed : Option Content) (attribution : Attribution) :
    SameAnswer
      (env.apply kind id proposed attribution first)
      (env.apply kind id proposed attribution second) := by
  have concerns : first.Concerns (fun _ => True) id proposed :=
    ⟨trivial, fun _ _ _ _ _ => trivial, fun _ _ _ _ _ => trivial⟩
  exact (env.apply_local (agrees.on _) concerns attribution).imp fun _ _ same =>
    ⟨same.1, .of_on same.2⟩

/-! ## Applying a submission -/

theorem live_eq (agrees : first.Agrees second) (kind : Kind) (id : EntityId) :
    env.live second kind id = env.live first kind id :=
  agrees.reads (fun store => env.live store kind id) fun _ _ _ => rfl

theorem applyItem_alike (agrees : first.Agrees second) (story : EntityId)
    (attribution : Attribution) (item : Bundle) :
    SameAnswer
      (env.applyItem story attribution item first)
      (env.applyItem story attribution item second) := by
  refine (env.apply_alike agrees .newsItem item.id (some item.content) attribution).bind ?_
  rintro ⟨outcome, next⟩ ⟨_, otherNext⟩ ⟨rfl, committed⟩
  have owners : otherNext.owners item.id itemRelation = next.owners item.id itemRelation :=
    committed.reads (fun store => store.owners item.id itemRelation) fun _ _ _ => rfl
  dsimp only at owners committed ⊢
  rw [owners]
  have detached (owner : EntityId) (before otherBefore : Store) (same : before.Agrees otherBefore) :
      SameAnswer
        (env.detach item.id attribution owner before)
        (env.detach item.id attribution owner otherBefore) := by
    unfold detach
    rw [env.live_eq same]
    exact .after fun record => env.apply_alike same ..
  refine (Alike.eachInTurn (fun outcome => outcome) Store.Agrees
    (fun owner _ before otherBefore same => detached owner before otherBefore same) committed).bind ?_
  rintro ⟨_, last⟩ ⟨_, otherLast⟩ ⟨_, done⟩
  exact .carried ⟨rfl, done⟩

theorem applyStory_alike (agrees : first.Agrees second) (attribution : Attribution)
    (bundle : StoryBundle) :
    SameAnswer
      (env.applyStory attribution bundle first) (env.applyStory attribution bundle second) := by
  refine (Alike.eachInTurn (fun outcome => outcome) Store.Agrees (fun sent _ _ _ before =>
    env.apply_alike before .attr sent.id (some sent.content) attribution) agrees).bind ?_
  rintro ⟨attributes, afterAttributes⟩ ⟨otherAttributes, otherAfter⟩ ⟨same, attributesDone⟩
  obtain rfl : attributes = otherAttributes := by simpa only [List.map_id'] using same
  refine (Alike.eachInTurn (fun outcome => outcome) Store.Agrees (fun item _ _ _ before =>
    env.applyItem_alike before bundle.id attribution item) attributesDone).bind ?_
  rintro ⟨items, afterItems⟩ ⟨otherItems, otherAfterItems⟩ ⟨sameItems, itemsDone⟩
  obtain rfl : items = otherItems := by simpa only [List.map_id'] using sameItems
  refine (env.apply_alike itemsDone .story bundle.id (some bundle.proposed) attribution).bind ?_
  rintro ⟨story, last⟩ ⟨_, otherLast⟩ ⟨rfl, done⟩
  exact .carried ⟨rfl, done⟩

end Env

/-! ## Judging a submission -/

/-- Two stores that agree, with rows and conflicts that are sound in both. -/
structure Store.Paired (first second : Store) : Prop where
  agrees : first.Agrees second
  rows : first.SoundRows
  conflicts : first.SoundConflicts
  otherConflicts : second.SoundConflicts

theorem Store.Paired.of_sheds {first second firstAfter secondAfter : Store}
    (paired : first.Paired second) (sheds : first.Sheds firstAfter)
    (otherSheds : second.Sheds secondAfter) : firstAfter.Paired secondAfter :=
  ⟨paired.agrees.of_kept sheds.records otherSheds.records, sheds.records.soundRows paired.rows,
    paired.conflicts.of_sheds sheds, paired.otherConflicts.of_sheds otherSheds⟩

namespace Env

variable {env : Env} {first second : Store}

/-- What is told of a conflict with a stored record does not depend on what is pending. -/
theorem noticeConflict_alike (registered : env.registry = .standard) (started : ¬ env.now < 0)
    (paired : first.Paired second) {id : EntityId} {row : EntityRow}
    (found : first.row? id = some row) (scope : Scope) {base : Option Nat}
    (bounded : ∀ version, base = some version → version < versionLimit) (incoming : Content)
    {parent : Option Parent} (parentFits : parent.isSome = !decide (row.kind = .story)) :
    Alike Eq (Alike.Reads ConflictSummary.record Store.Paired)
      (env.noticeConflict (row.record id) scope base incoming parent first)
      (env.noticeConflict (row.record id) scope base incoming parent second) := by
  have otherFound : second.row? id = some row := by rw [paired.agrees.row?_eq, found]
  have current := (paired.rows id row found).bounded
  obtain ⟨summary, after, noticed, kind, entity, version, stored⟩ :=
    noticeConflict_carried registered started paired.conflicts found current scope bounded incoming
      parentFits
  obtain ⟨other, otherAfter, otherNoticed, otherKind, otherEntity, otherVersion, otherStored⟩ :=
    noticeConflict_carried registered started paired.otherConflicts otherFound current scope bounded
      incoming parentFits
  have kept := noticeConflict_keepsRecords noticed
  rw [noticed, otherNoticed]
  refine .carried ⟨?_, paired.agrees.of_kept kept (noticeConflict_keepsRecords otherNoticed),
    kept.soundRows paired.rows,
    noticeConflict_soundConflicts paired.conflicts ⟨row, found, rfl⟩ noticed,
    noticeConflict_soundConflicts paired.otherConflicts ⟨row, otherFound, rfl⟩ otherNoticed⟩
  rw [ConflictSummary.record, kind, entity, version, stored, ConflictSummary.record, otherKind,
    otherEntity, otherVersion, otherStored]

/-- Whether a mention is told, and the stored record that is told with it, do not depend on what is
pending. -/
theorem judge_alike (registered : env.registry = .standard) (started : ¬ env.now < 0)
    (paired : first.Paired second) (scope : Scope) {kind : Kind} {parent : Option Parent}
    (parentFits : parent.isSome = !decide (kind = .story)) {sent : Bundle}
    (bounded : ∀ version, sent.base = some version → version < versionLimit) :
    Alike Eq (Alike.Reads (Option.map ConflictSummary.record) Store.Paired)
      (env.judge scope kind parent sent first) (env.judge scope kind parent sent second) := by
  have looked : env.stale? second kind sent = env.stale? first kind sent :=
    paired.agrees.reads (fun store => env.stale? store kind sent) fun _ _ _ => rfl
  unfold judge
  rw [looked]
  cases outdated : env.stale? first kind sent with
  | error refusal => exact .refused rfl
  | ok found =>
      cases found with
      | none =>
          exact .carried ⟨rfl, paired.of_sheds (.withdrawConflict first kind sent.id scope)
            (.withdrawConflict second kind sent.id scope)⟩
      | some record =>
          obtain ⟨row, found, rfl, rfl⟩ := stale?_found registered paired.rows outdated
          exact (noticeConflict_alike registered started paired found scope bounded sent.content
            parentFits).bind fun _ _ told => .carried ⟨congrArg some told.1, told.2⟩

/-- Items or attributes of a story, one after another. -/
theorem judgeMembers_alike (registered : env.registry = .standard) (started : ¬ env.now < 0)
    (paired : first.Paired second) (scope : Scope) {kind : Kind} (member : kind ≠ .story)
    (parent : Parent) {sent : List Bundle}
    (bounded : ∀ bundle ∈ sent, ∀ version, bundle.base = some version → version < versionLimit) :
    Alike Eq (Alike.Reads (List.map (Option.map ConflictSummary.record)) Store.Paired)
      (inTurn (env.judge scope kind (some parent)) sent first)
      (inTurn (env.judge scope kind (some parent)) sent second) := by
  refine Alike.eachInTurn _ _ (fun bundle listed _ _ before => ?_) paired
  refine judge_alike registered started before scope ?_ (bounded bundle listed)
  rw [decide_eq_false member]
  rfl

/-- What is told, read from all that was judged. -/
theorem record_filterMap (summaries : List (Option ConflictSummary)) :
    (summaries.filterMap fun summary => summary).map ConflictSummary.record =
      (summaries.map (Option.map ConflictSummary.record)).filterMap fun record => record := by
  rw [List.map_filterMap, List.filterMap_map]
  rfl

theorem judgeStory_alike (registered : env.registry = .standard) (started : ¬ env.now < 0)
    (paired : first.Paired second) (scope : Scope) {bundle : StoryBundle}
    (bounded : ∀ mention ∈ bundle.mentions, ∀ version, mention.sent.base = some version →
      version < versionLimit) :
    Alike Eq (Alike.Reads (List.map ConflictSummary.record) Store.Paired)
      (env.judgeStory scope bundle first) (env.judgeStory scope bundle second) := by
  refine .after fun _ => ?_
  refine (judge_alike registered started paired scope (show none.isSome = _ from rfl)
    (bounded _ List.mem_cons_self)).bind ?_
  rintro ⟨story, afterStory⟩ ⟨otherStory, otherAfterStory⟩ ⟨storyTold, storyPaired⟩
  refine (judgeMembers_alike registered started (storyPaired.of_sheds
    (.withdrawDropped afterStory .newsItem scope bundle.id (bundle.items.map Bundle.id))
    (.withdrawDropped otherAfterStory .newsItem scope bundle.id (bundle.items.map Bundle.id)))
    scope (by decide) ⟨bundle.id, bundle.proposed⟩ fun sent listed =>
      bounded _ (StoryBundle.item_mem_mentions listed)).bind ?_
  rintro ⟨items, afterItems⟩ ⟨otherItems, otherAfterItems⟩ ⟨itemsTold, itemsPaired⟩
  refine (judgeMembers_alike registered started (itemsPaired.of_sheds
    (.withdrawDropped afterItems .attr scope bundle.id (bundle.attributes.map Bundle.id))
    (.withdrawDropped otherAfterItems .attr scope bundle.id (bundle.attributes.map Bundle.id)))
    scope (by decide) ⟨bundle.id, bundle.proposed⟩ fun sent listed =>
      bounded _ (StoryBundle.attr_mem_mentions (Bundle.mem_firsts listed))).bind ?_
  rintro ⟨attributes, last⟩ ⟨otherAttributes, otherLast⟩ ⟨attributesTold, lastPaired⟩
  refine .carried ⟨?_, lastPaired⟩
  dsimp only at storyTold itemsTold attributesTold ⊢
  rw [record_filterMap, record_filterMap, List.map_append, List.map_append, List.map_cons,
    List.map_cons, storyTold, itemsTold, attributesTold]

/-- A submission is rejected in both stores, for conflicts with the same stored records, or goes the
same way in both. -/
theorem judgeAndApply_alike (registered : env.registry = .standard) (started : ¬ env.now < 0)
    (paired : first.Paired second) {submission : Submission} (storable : submission.Storable) :
    Alike Eq (Alike.Reads (Sum.map (List.map ConflictSummary.record) fun applied => applied)
        Store.Agrees)
      (env.judgeAndApply submission first) (env.judgeAndApply submission second) := by
  have judging : Alike Eq (Alike.Reads (List.map (List.map ConflictSummary.record)) Store.Paired)
      (inTurn (env.judgeStory submission.scope) submission.stories first)
      (inTurn (env.judgeStory submission.scope) submission.stories second) := by
    refine Alike.eachInTurn _ _ (fun bundle listed before other both => ?_) paired
    exact judgeStory_alike registered started both submission.scope fun mention mentioned =>
      storable mention (List.mem_flatMap.mpr ⟨bundle, listed, mentioned⟩)
  unfold judgeAndApply
  refine judging.bind ?_
  rintro ⟨summaries, judged⟩ ⟨others, otherJudged⟩ ⟨told, judgedPaired⟩
  have records : summaries.flatten.map ConflictSummary.record =
      others.flatten.map ConflictSummary.record := by
    rw [List.map_flatten, List.map_flatten, told]
  dsimp only at judgedPaired ⊢
  revert records
  generalize summaries.flatten = conflicts
  generalize others.flatten = otherConflicts
  intro records
  cases conflicts with
  | nil =>
      obtain rfl : otherConflicts = [] := List.map_eq_nil_iff.mp records.symm
      refine (Alike.eachInTurn (fun applied => applied) Store.Agrees (fun bundle _ _ _ before =>
        env.applyStory_alike before _ bundle) judgedPaired.agrees).bind ?_
      rintro ⟨applied, last⟩ ⟨otherApplied, otherLast⟩ ⟨same, done⟩
      obtain rfl : applied = otherApplied := by simpa only [List.map_id'] using same
      exact .carried ⟨rfl, done⟩
  | cons conflict rest =>
      cases otherConflicts with
      | nil => cases records
      | cons other others => exact .carried ⟨congrArg Sum.inl records, judgedPaired.agrees⟩

end Env

/-! ## Operations -/

/-- Two causes correspond if they are the same, or conflicts with the same stored records. -/
inductive Refusal.Matches : Refusal → Refusal → Prop
  | same (refusal : Refusal) : Matches refusal refusal
  | conflicting {first second : List ConflictSummary}
      (records : first.map ConflictSummary.record = second.map ConflictSummary.record) :
      Matches (.conflicting first) (.conflicting second)

namespace Env

variable {env : Env} {first second : Store}

theorem commit_alike (agrees : first.Agrees second) (kind : Kind) (id : EntityId)
    (proposed : Option Content) (attribution : Attribution) :
    (env.commit kind id proposed attribution first).1 =
        (env.commit kind id proposed attribution second).1 ∧
      (env.commit kind id proposed attribution first).2.Agrees
        (env.commit kind id proposed attribution second).2 := by
  have alike := env.apply_alike agrees kind id proposed attribution
  unfold commit Step.transact
  revert alike
  generalize env.apply kind id proposed attribution first = answer
  generalize env.apply kind id proposed attribution second = other
  intro alike
  cases alike with
  | refused causes => exact ⟨congrArg Except.error causes, agrees⟩
  | carried same => exact ⟨congrArg Except.ok same.1, same.2⟩

theorem submit_alike (registered : env.registry = .standard) (started : ¬ env.now < 0)
    (paired : first.Paired second) {submission : Submission} (storable : submission.Storable) :
    Alike Refusal.Matches Eq (env.submit submission first).1 (env.submit submission second).1 ∧
      (env.submit submission first).2.Agrees (env.submit submission second).2 := by
  have alike := judgeAndApply_alike registered started paired storable
  rw [submit_eq, submit_eq]
  revert alike
  generalize env.judgeAndApply submission first = answer
  generalize env.judgeAndApply submission second = other
  intro alike
  cases alike with
  | @refused refusal _ causes =>
      subst causes
      exact ⟨.refused (.same refusal), paired.agrees⟩
  | carried same =>
      rename_i result otherResult
      obtain ⟨result, after⟩ := result
      obtain ⟨otherResult, otherAfter⟩ := otherResult
      obtain ⟨told, agrees⟩ := same
      dsimp only at told agrees
      cases result with
      | inl conflicts =>
          cases otherResult with
          | inl others => exact ⟨.refused (.conflicting (Sum.inl.inj told)), agrees⟩
          | inr applied => cases told
      | inr applied =>
          cases otherResult with
          | inl others => cases told
          | inr otherApplied => exact ⟨.carried (Sum.inr.inj told), agrees⟩

end Env

/-- In two stores that runs can lead to and that have the same records, snapshots and link rows, a
commit has the same answer, and a submission is rejected in both for conflicts with the same stored
records, or has the same answer. Afterwards the stores have the same records, snapshots and link
rows again, whatever was pending and is pending now. -/
theorem Reachable.pending_ignored {first second : Store} (reachable : Reachable .standard first)
    (otherReachable : Reachable .standard second) (agrees : first.Agrees second) {env : Env}
    (registered : env.registry = .standard) (started : ¬ env.now < 0) :
    (∀ kind id proposed attribution,
      (env.commit kind id proposed attribution first).1 =
          (env.commit kind id proposed attribution second).1 ∧
        (env.commit kind id proposed attribution first).2.Agrees
          (env.commit kind id proposed attribution second).2) ∧
    ∀ submission : Submission, submission.Storable →
      Alike Refusal.Matches Eq (env.submit submission first).1 (env.submit submission second).1 ∧
        (env.submit submission first).2.Agrees (env.submit submission second).2 := by
  obtain ⟨rows, conflicts⟩ := reachable.sound
  obtain ⟨_, otherConflicts⟩ := otherReachable.sound
  exact ⟨Env.commit_alike agrees, fun submission storable =>
    Env.submit_alike registered started ⟨agrees, rows, conflicts, otherConflicts⟩ storable⟩

/-- A store with a tag that was renamed, and with a conflict about its name. -/
def Store.withPendingName : Store :=
  .following ⟨.standard, 3, 0⟩
    [.commit .attr ⟨⟨1⟩⟩ (some ⟨.ofList [("key", .text "draft")], .empty⟩) ⟨"editor", .direct⟩,
      .commit .attr ⟨⟨1⟩⟩ (some ⟨.ofList [("key", .text "final")], .empty⟩) ⟨"editor", .direct⟩,
      .submit (.naming [(1, "other")])]

/-- The tag is deleted, and another name for it rejected, with the conflict and without it. -/
theorem pending_ignored_withPendingName :
    (Reachable .standard .withRenamedTag ∧ Reachable .standard .withPendingName) ∧
    Store.withRenamedTag.Agrees .withPendingName ∧
    (Store.withRenamedTag.conflicts.size = 0 ∧ Store.withPendingName.conflicts.size = 1) ∧
    (Env.commit ⟨.standard, 3, 0⟩ .attr ⟨⟨1⟩⟩ none ⟨"editor", .direct⟩ .withRenamedTag).2.Agrees
      (Env.commit ⟨.standard, 3, 0⟩ .attr ⟨⟨1⟩⟩ none ⟨"editor", .direct⟩ .withPendingName).2 ∧
    (Submission.naming [(1, "another")]).Fits .withRenamedTag ∧
    Alike Refusal.Matches Eq
      (Env.submit ⟨.standard, 3, 0⟩ (.naming [(1, "another")]) .withRenamedTag).1
      (Env.submit ⟨.standard, 3, 0⟩ (.naming [(1, "another")]) .withPendingName).1 := by
  have reachable : Reachable .standard .withRenamedTag := reachable_following ⟨.standard, 3, 0⟩ _
  have otherReachable : Reachable .standard .withPendingName :=
    reachable_following ⟨.standard, 3, 0⟩ _
  have agrees : Store.withRenamedTag.Agrees .withPendingName :=
    ⟨by decide +kernel, by decide +kernel, by decide +kernel⟩
  have fits : (Submission.naming [(1, "another")]).Fits .withRenamedTag := by decide +kernel
  have started : ¬ (Env.mk .standard 3 0).now < 0 := by decide
  obtain ⟨commits, submissions⟩ := reachable.pending_ignored otherReachable agrees rfl started
  exact ⟨⟨reachable, otherReachable⟩, agrees, ⟨by decide +kernel, by decide +kernel⟩,
    (commits .attr ⟨⟨1⟩⟩ none ⟨"editor", .direct⟩).2, fits,
    (submissions _ fun mention listed => (fits.mentions mention listed).base).1⟩

end Chronicle
