import Chronicle.Proofs.Pending
import Chronicle.Proofs.Refusals

/-!
# Judging a submission

A submission is judged before it is applied. If all that it mentions can be judged, what a
producer is told are exactly the mentions that diverge (`Env.judgeStories_carried`). Judging
changes no record.
-/

namespace Chronicle

open Descriptor (standard)

/-! ## What is told -/

/-- The stored record of a mention that diverges. -/
def Mention.outdated? (store : Store) (mention : Mention) : Option Record :=
  (mention.divergent? store).map fun row => row.record mention.sent.id

/-- The stored record that a producer is told about. -/
def ConflictSummary.record (summary : ConflictSummary) : Record :=
  ⟨summary.entity, summary.kind, summary.storedVersion, summary.stored⟩

/-- The mentions that are judged: an attribute counts once in a story, as it was sent first. -/
def StoryBundle.judged (bundle : StoryBundle) : List Mention :=
  ⟨.story, bundle.sent⟩ :: (bundle.items.map (Mention.mk .newsItem) ++
    (Bundle.firsts bundle.attributes).map (Mention.mk .attr))

def Submission.judged (submission : Submission) : List Mention :=
  submission.stories.flatMap StoryBundle.judged

/-- The versions that a submission declares can be stored. -/
def Submission.Storable (submission : Submission) : Prop :=
  ∀ mention ∈ submission.mentions, ∀ version, mention.sent.base = some version →
    version < versionLimit

/-- What a mention has to be like to be judged: its content is acceptable, its record has the
named kind if it is live, and its version can be stored. -/
structure Mention.Fits (store : Store) (mention : Mention) : Prop where
  accepted : (standard mention.kind).check mention.sent.content = .ok ()
  kind : ∀ row, store.live? mention.sent.id = some row → row.kind = mention.kind
  base : ∀ version, mention.sent.base = some version → version < versionLimit

instance (store : Store) (mention : Mention) : Decidable (mention.Fits store) :=
  decidable_of_iff
    ((standard mention.kind).check mention.sent.content = .ok () ∧
      (∀ row ∈ store.live? mention.sent.id, row.kind = mention.kind) ∧
      ∀ version ∈ mention.sent.base, version < versionLimit)
    ⟨fun all => ⟨all.1, all.2.1, all.2.2⟩, fun fits => ⟨fits.accepted, fits.kind, fits.base⟩⟩

theorem Bundle.mem_firsts {sent : Bundle} {bundles : List Bundle}
    (listed : sent ∈ Bundle.firsts bundles) : sent ∈ bundles := by
  induction bundles with
  | nil => exact listed
  | cons first rest ih =>
      rcases List.mem_cons.mp listed with same | later
      · exact List.mem_cons.mpr (Or.inl same)
      · exact List.mem_cons_of_mem first (ih (List.mem_filter.mp later).1)

/-- Nothing is left out where no attribute is repeated. -/
theorem Bundle.firsts_eq_self {bundles : List Bundle} (once : (bundles.map Bundle.id).Nodup) :
    Bundle.firsts bundles = bundles := by
  induction bundles with
  | nil => rfl
  | cons first rest ih =>
      obtain ⟨absent, restOnce⟩ := List.nodup_cons.mp once
      rw [firsts, ih restOnce]
      refine congrArg (first :: ·) (List.filter_eq_self.mpr ?_)
      intro bundle listed
      refine decide_eq_true ?_
      intro same
      exact absent (List.mem_map.mpr ⟨bundle, listed, same⟩)

theorem StoryBundle.judged_eq_mentions {bundle : StoryBundle}
    (once : (bundle.attributes.map Bundle.id).Nodup) : bundle.judged = bundle.mentions := by
  rw [judged, mentions, Bundle.firsts_eq_self once]

/-- What tells mentions apart. -/
def Mention.name (mention : Mention) : Kind × EntityId := (mention.kind, mention.sent.id)

/-- A submission that names each record once is judged in full. -/
theorem Submission.judged_eq_mentions {submission : Submission}
    (once : (submission.mentions.map Mention.name).Nodup) :
    submission.judged = submission.mentions := by
  rw [mentions, List.map_flatMap, List.nodup_flatMap] at once
  refine List.flatMap_congr ?_
  intro bundle listed
  have names := once.1 bundle listed
  have attributes : (bundle.attributes.map (Mention.mk .attr)).map Mention.name =
      (bundle.attributes.map Bundle.id).map (Prod.mk Kind.attr) := by
    rw [List.map_map, List.map_map]
    rfl
  refine StoryBundle.judged_eq_mentions (List.Nodup.of_map (Prod.mk Kind.attr) ?_)
  rw [← attributes]
  refine names.sublist (List.Sublist.map _ ?_)
  exact (List.sublist_append_right _ _).cons _

/-- What is told about items in turn, told all at once. -/
theorem told_of_forall₂ {α β γ : Type} {read : β → γ} {find : α → Option γ} {items : List α}
    {answers : List (Option β)}
    (each : List.Forall₂ (fun item answer => answer.map read = find item) items answers) :
    (answers.filterMap fun answer => answer).map read = items.filterMap find := by
  induction each with
  | nil => rfl
  | cons head _ ih =>
      rw [List.filterMap_cons, List.filterMap_cons, ← head]
      rename_i answer _ _ _
      cases answer with
      | none => exact ih
      | some summary => exact congrArg (read summary :: ·) ih

theorem flatten_told_of_forall₂ {α β γ δ : Type} {read : β → γ} {part : α → List δ}
    {find : δ → Option γ} {items : List α} {answers : List (List β)}
    (each : List.Forall₂ (fun item answer => answer.map read = (part item).filterMap find) items
      answers) :
    answers.flatten.map read = (items.flatMap part).filterMap find := by
  induction each with
  | nil => rfl
  | cons head _ ih =>
      rw [List.flatten_cons, List.map_append, head, ih, List.flatMap_cons, List.filterMap_append]

/-! ## Records that are kept -/

namespace Store.KeepsRecords

variable {first store : Store}

theorem soundRows (kept : first.KeepsRecords store) (sound : first.SoundRows) :
    store.SoundRows := by
  intro id row found
  rw [kept.row?_eq] at found
  exact sound id row found

theorem live?_eq (kept : first.KeepsRecords store) (id : EntityId) :
    store.live? id = first.live? id := by
  rw [live?, live?, kept.row?_eq]

theorem divergent?_eq (kept : first.KeepsRecords store) (mention : Mention) :
    mention.divergent? store = mention.divergent? first := by
  rw [Mention.divergent?, Mention.divergent?, kept.live?_eq]

end Store.KeepsRecords

namespace Env

variable {env : Env} {first store after : Store}

/-! ## Every mention can be judged -/

/-- A mention that fits is judged, and what is told is what diverges. -/
theorem judge_carried (registered : env.registry = .standard) (started : ¬ env.now < 0)
    (rows : first.SoundRows) (kept : first.KeepsRecords store) (sound : store.SoundConflicts)
    (scope : Scope) {mention : Mention} (fits : mention.Fits first) {parent : Option Parent}
    (parentFits : parent.isSome = !decide (mention.kind = .story)) :
    ∃ summary after, env.judge scope mention.kind parent mention.sent store =
        .ok (summary, after) ∧
      summary.map ConflictSummary.record = mention.outdated? first ∧
      first.KeepsRecords after ∧ after.SoundConflicts := by
  have storeRows := kept.soundRows rows
  have looked := (stale?_mention_eq_ok registered storeRows fits.accepted).mpr ⟨?_, rfl⟩
  · unfold judge
    rw [looked, kept.divergent?_eq, Mention.outdated?]
    cases divergent : mention.divergent? first with
    | none =>
        have sheds := Store.Sheds.withdrawConflict store mention.kind mention.sent.id scope
        exact ⟨none, _, rfl, rfl, kept.trans sheds.records, sound.of_sheds sheds⟩
    | some row =>
        obtain ⟨live, _⟩ := Mention.divergent?_eq_some_iff.mp divergent
        have sameKind := fits.kind row live
        obtain ⟨found, _⟩ := Store.live?_eq_some_iff.mp live
        rw [← kept.row?_eq] at found
        rw [← sameKind] at parentFits
        obtain ⟨summary, after, noticed, kind, entity, version, stored⟩ :=
          noticeConflict_carried registered started sound found (storeRows _ _ found).bounded
            scope fits.base mention.sent.content parentFits
        refine ⟨some summary, after, ?_, ?_, kept.trans (noticeConflict_keepsRecords noticed),
          noticeConflict_soundConflicts sound ⟨row, found, rfl⟩ noticed⟩
        · exact bind_eq_ok.mpr ⟨_, rfl, bind_eq_ok.mpr ⟨(summary, after), noticed, rfl⟩⟩
        · rw [Option.map_some, Option.map_some, ConflictSummary.record, kind, entity, version,
            stored]
          rfl
  · intro row live
    rw [kept.live?_eq] at live
    exact fits.kind row live

theorem validateStory_eq_ok (registered : env.registry = .standard) {bundle : StoryBundle} :
    env.validateStory bundle = .ok () ↔
      ∀ mention ∈ bundle.mentions,
        (standard mention.kind).check mention.sent.content = .ok () := by
  have validate (kind : Kind) (content : Content) :
      env.validate kind content = .ok () ↔ (standard kind).check content = .ok () := by
    unfold Env.validate
    rw [descriptor_standard registered]
    exact mapError_eq_ok
  unfold validateStory
  simp only [bind_eq_ok, StoryBundle.mentions, List.forall_mem_cons, List.forall_mem_append,
    List.forall_mem_map, ← validate]
  constructor
  · rintro ⟨⟨⟩, story, ⟨⟩, items, attributes⟩
    exact ⟨story, forM_eq_ok.mp items, forM_eq_ok.mp attributes⟩
  · rintro ⟨story, items, attributes⟩
    exact ⟨(), story, (), forM_eq_ok.mpr items, forM_eq_ok.mpr attributes⟩

/-- Items or attributes of a story that fit are judged one after another. -/
theorem judgeMembers_carried (registered : env.registry = .standard) (started : ¬ env.now < 0)
    (rows : first.SoundRows) (kept : first.KeepsRecords store) (sound : store.SoundConflicts)
    (scope : Scope) (kind : Kind) (member : kind ≠ .story) (parent : Parent) {sent : List Bundle}
    (fits : ∀ bundle ∈ sent, Mention.Fits first ⟨kind, bundle⟩) :
    ∃ summaries after, inTurn (env.judge scope kind (some parent)) sent store =
        .ok (summaries, after) ∧
      (summaries.filterMap fun summary => summary).map ConflictSummary.record =
        (sent.map (Mention.mk kind)).filterMap (Mention.outdated? first) ∧
      first.KeepsRecords after ∧ after.SoundConflicts := by
  have parentFits : (some parent).isSome = !decide (kind = .story) := by
    rw [decide_eq_false member]
    rfl
  have each : ∀ bundle ∈ sent, ∀ before, (first.KeepsRecords before ∧ before.SoundConflicts) →
      ∃ summary next, env.judge scope kind (some parent) bundle before = .ok (summary, next) ∧
        summary.map ConflictSummary.record = Mention.outdated? first ⟨kind, bundle⟩ ∧
        (first.KeepsRecords next ∧ next.SoundConflicts) := by
    intro bundle listed before both
    exact judge_carried registered started rows both.1 both.2 scope (fits bundle listed) parentFits
  obtain ⟨summaries, after, judged, told, both⟩ := inTurn_carried _ _ each ⟨kept, sound⟩
  refine ⟨summaries, after, judged, ?_, both⟩
  rw [told_of_forall₂ told, List.filterMap_map]
  rfl

theorem judgeStory_carried (registered : env.registry = .standard) (started : ¬ env.now < 0)
    (rows : first.SoundRows) (kept : first.KeepsRecords store) (sound : store.SoundConflicts)
    (scope : Scope) {bundle : StoryBundle}
    (fits : ∀ mention ∈ bundle.mentions, mention.Fits first) :
    ∃ summaries after, env.judgeStory scope bundle store = .ok (summaries, after) ∧
      summaries.map ConflictSummary.record =
        bundle.judged.filterMap (Mention.outdated? first) ∧
      first.KeepsRecords after ∧ after.SoundConflicts := by
  have valid := (validateStory_eq_ok registered).mpr fun mention listed =>
    (fits mention listed).accepted
  have itemFits : ∀ sent ∈ bundle.items, Mention.Fits first ⟨.newsItem, sent⟩ :=
    fun sent listed => fits _ (StoryBundle.item_mem_mentions listed)
  have attributeFits : ∀ sent ∈ Bundle.firsts bundle.attributes, Mention.Fits first ⟨.attr, sent⟩ :=
    fun sent listed => fits _ (StoryBundle.attr_mem_mentions (Bundle.mem_firsts listed))
  -- the story, then its items, then its attributes, each from where the last has led
  obtain ⟨story, afterStory, storyJudged, storyTold, storyKept, storySound⟩ :=
    judge_carried registered started rows kept sound scope
      (fits ⟨.story, bundle.sent⟩ List.mem_cons_self) (show none.isSome = _ from rfl)
  have itemsShed := Store.Sheds.withdrawDropped afterStory .newsItem scope bundle.id
    (bundle.items.map Bundle.id)
  obtain ⟨items, afterItems, itemsJudged, itemsTold, itemsKept, itemsSound⟩ :=
    judgeMembers_carried registered started rows (storyKept.trans itemsShed.records)
      (storySound.of_sheds itemsShed) scope .newsItem (by decide)
      ⟨bundle.id, bundle.proposed⟩ itemFits
  have attributesShed := Store.Sheds.withdrawDropped afterItems .attr scope bundle.id
    (bundle.attributes.map Bundle.id)
  obtain ⟨attributes, after, attributesJudged, attributesTold, attributesKept, attributesSound⟩ :=
    judgeMembers_carried registered started rows (itemsKept.trans attributesShed.records)
      (itemsSound.of_sheds attributesShed) scope .attr (by decide)
      ⟨bundle.id, bundle.proposed⟩ attributeFits
  refine ⟨(story :: items ++ attributes).filterMap fun summary => summary, after, ?_, ?_,
    attributesKept, attributesSound⟩
  · unfold judgeStory
    simp only [bind_eq_ok, pure_eq_ok, Prod.exists, Prod.mk.injEq]
    exact ⟨(), valid, story, afterStory, storyJudged, items, afterItems, itemsJudged, attributes,
      after, attributesJudged, rfl, rfl⟩
  · have storyAlone := told_of_forall₂ (.cons storyTold .nil)
    calc ((story :: items ++ attributes).filterMap fun summary => summary).map
            ConflictSummary.record
        = ([story].filterMap fun summary => summary).map ConflictSummary.record ++
            ((items.filterMap fun summary => summary).map ConflictSummary.record ++
              (attributes.filterMap fun summary => summary).map ConflictSummary.record) := by
          rw [← List.map_append, ← List.map_append, ← List.filterMap_append,
            ← List.filterMap_append]
          rfl
      _ = bundle.judged.filterMap (Mention.outdated? first) := by
          rw [storyAlone, itemsTold, attributesTold, ← List.filterMap_append,
            ← List.filterMap_append]
          rfl

/-- All mentions of a submission are judged, story by story. -/
theorem judgeStories_carried (registered : env.registry = .standard) (started : ¬ env.now < 0)
    (rows : store.SoundRows) (sound : store.SoundConflicts) {submission : Submission}
    (fits : ∀ mention ∈ submission.mentions, mention.Fits store) :
    ∃ summaries judged, inTurn (env.judgeStory submission.scope) submission.stories store =
        .ok (summaries, judged) ∧
      summaries.flatten.map ConflictSummary.record =
        submission.judged.filterMap (Mention.outdated? store) ∧
      store.KeepsRecords judged := by
  have each : ∀ bundle ∈ submission.stories, ∀ before,
      (store.KeepsRecords before ∧ before.SoundConflicts) →
      ∃ summaries next, env.judgeStory submission.scope bundle before = .ok (summaries, next) ∧
        summaries.map ConflictSummary.record =
          bundle.judged.filterMap (Mention.outdated? store) ∧
        (store.KeepsRecords next ∧ next.SoundConflicts) := by
    intro bundle listed before both
    refine judgeStory_carried registered started rows both.1 both.2 submission.scope ?_
    intro mention mentioned
    exact fits mention (List.mem_flatMap.mpr ⟨bundle, listed, mentioned⟩)
  obtain ⟨summaries, judged, carried, told, kept, _⟩ :=
    inTurn_carried _ _ each ⟨.refl store, sound⟩
  exact ⟨summaries, judged, carried, flatten_told_of_forall₂ told, kept⟩

/-! ## Rejections -/

/-- The answer of a submission, and where it leads, as the parts of it answer. -/
theorem submit_eq (env : Env) (submission : Submission) (store : Store) :
    env.submit submission store =
      match env.judgeAndApply submission store with
      | .error refusal => (.error refusal, store)
      | .ok (.inl conflicts, after) => (.error (.conflicting conflicts), after)
      | .ok (.inr applied, after) => (.ok applied, after) := by
  unfold submit Step.transact
  cases env.judgeAndApply submission store with
  | error refusal => rfl
  | ok carried =>
      obtain ⟨answer, after⟩ := carried
      cases answer <;> rfl

/-- If nothing is told, the submission is not rejected for conflicts. -/
theorem submit_of_quiet {submission : Submission} {summaries : List (List ConflictSummary)}
    (judged : inTurn (env.judgeStory submission.scope) submission.stories store =
      .ok (summaries, after)) (quiet : summaries.flatten = []) :
    Unconflicted (env.submit submission store).1 := by
  have applying := env.judgeAndApply_unconflicted submission store
  constructor
  intro conflicts refused
  rw [submit_eq] at refused
  cases carried : env.judgeAndApply submission store with
  | error refusal =>
      rw [carried] at refused applying
      have same : refusal = .conflicting conflicts := Except.error.inj refused
      exact applying.ne conflicts (congrArg Except.error same)
  | ok answer =>
      obtain ⟨answer, last⟩ := answer
      obtain ⟨_, _, again, ⟨_, _, rfl, _⟩ | ⟨told, _, _⟩⟩ := judgeAndApply_eq_ok carried
      · rw [carried] at refused
        cases refused
      · rw [judged] at again
        cases again
        exact told quiet

/-- If anything is told, the submission is rejected where it was judged. -/
theorem submit_of_told {submission : Submission} {summaries : List (List ConflictSummary)}
    (judged : inTurn (env.judgeStory submission.scope) submission.stories store =
      .ok (summaries, after)) (told : summaries.flatten ≠ []) :
    env.submit submission store = (.error (.conflicting summaries.flatten), after) := by
  have rejected : env.judgeAndApply submission store = .ok (.inl summaries.flatten, after) := by
    unfold judgeAndApply
    refine bind_eq_ok.mpr ⟨_, judged, ?_⟩
    dsimp only
    split
    · rename_i none
      exact absurd none told
    · rfl
  rw [submit_eq, rejected]

end Env

/-- What a submission has to be like to be judged exactly. -/
structure Submission.Fits (store : Store) (submission : Submission) : Prop where
  mentions : ∀ mention ∈ submission.mentions, mention.Fits store
  once : (submission.mentions.map Mention.name).Nodup

instance (store : Store) (submission : Submission) : Decidable (submission.Fits store) :=
  decidable_of_iff
    ((∀ mention ∈ submission.mentions, mention.Fits store) ∧
      (submission.mentions.map Mention.name).Nodup)
    ⟨fun both => ⟨both.1, both.2⟩, fun fits => ⟨fits.mentions, fits.once⟩⟩

/-- A submission is rejected for conflicts exactly if one of its mentions diverges. What is told
are the stored records of those that do, in the sequence of the submission; and no record nor
any of its history is changed. -/
theorem Env.submit_detects {env : Env} (registered : env.registry = .standard)
    (started : ¬ env.now < 0) {store : Store} (reachable : Reachable .standard store)
    {submission : Submission} (fits : submission.Fits store) :
    ((∃ conflicts, (env.submit submission store).1 = .error (.conflicting conflicts)) ↔
      ∃ mention ∈ submission.mentions, (mention.divergent? store).isSome = true) ∧
    ∀ conflicts, (env.submit submission store).1 = .error (.conflicting conflicts) →
      conflicts.map ConflictSummary.record =
        submission.mentions.filterMap (Mention.outdated? store) ∧
      store.KeepsRecords (env.submit submission store).2 := by
  obtain ⟨rows, sound⟩ := reachable.sound
  obtain ⟨summaries, judged, carried, told, kept⟩ :=
    judgeStories_carried registered started rows sound fits.mentions
  rw [Submission.judged_eq_mentions fits.once] at told
  have some_iff : summaries.flatten ≠ [] ↔
      ∃ mention ∈ submission.mentions, (mention.divergent? store).isSome = true := by
    have lists : summaries.flatten = [] ↔
        submission.mentions.filterMap (Mention.outdated? store) = [] := by
      rw [← told, List.map_eq_nil_iff]
    rw [ne_eq, lists, List.filterMap_eq_nil_iff]
    simp [Mention.outdated?, Option.isSome_iff_ne_none]
  by_cases quiet : summaries.flatten = []
  · have unconflicted := submit_of_quiet carried quiet
    constructor
    · rw [← some_iff]
      constructor
      · rintro ⟨conflicts, rejected⟩
        exact absurd rejected (unconflicted.ne conflicts)
      · intro told
        exact absurd quiet told
    · intro conflicts rejected
      exact absurd rejected (unconflicted.ne conflicts)
  · rw [submit_of_told carried quiet]
    constructor
    · rw [← some_iff]
      exact ⟨fun _ => quiet, fun _ => ⟨summaries.flatten, rfl⟩⟩
    · intro conflicts rejected
      cases rejected
      exact ⟨told, kept⟩

/-- A store with a tag that was renamed. -/
def Store.withRenamedTag : Store :=
  .following ⟨.standard, 3, 0⟩
    [.commit .attr ⟨⟨1⟩⟩ (some ⟨.ofList [("key", .text "draft")], .empty⟩) ⟨"editor", .direct⟩,
      .commit .attr ⟨⟨1⟩⟩ (some ⟨.ofList [("key", .text "final")], .empty⟩) ⟨"editor", .direct⟩]

/-- A new story that is sent with a name for the tag, from who has seen some version of it. -/
def Submission.naming (tags : List (Nat × String)) : Submission :=
  ⟨"feed", "collector", [⟨⟨⟨2⟩⟩, none, ⟨.ofList [("title", .text "story")], .empty⟩, [],
    tags.map fun tag => ⟨⟨⟨1⟩⟩, some tag.1, ⟨.ofList [("key", .text tag.2)], .empty⟩⟩⟩]⟩

/-- Who has not seen the new name of the tag cannot give it another. -/
theorem submit_detects_unseen_name :
    Reachable .standard .withRenamedTag ∧ (Submission.naming [(1, "other")]).Fits .withRenamedTag ∧
    ∃ conflicts, (Env.submit ⟨.standard, 3, 0⟩ (.naming [(1, "other")]) .withRenamedTag).1 =
        .error (.conflicting conflicts) ∧
      conflicts.map ConflictSummary.record =
        [⟨⟨⟨1⟩⟩, .attr, 2, ⟨.ofList [("key", .text "final")], .empty⟩⟩] := by
  have reachable : Reachable .standard .withRenamedTag := reachable_following ⟨.standard, 3, 0⟩ _
  have fits : (Submission.naming [(1, "other")]).Fits .withRenamedTag := by decide +kernel
  have started : ¬ (Env.mk .standard 3 0).now < 0 := by decide
  obtain ⟨rejected_iff, told⟩ := Env.submit_detects rfl started reachable fits
  obtain ⟨conflicts, rejected⟩ := rejected_iff.mpr (by decide +kernel)
  refine ⟨reachable, fits, conflicts, rejected, ?_⟩
  rw [(told conflicts rejected).1]
  decide +kernel

end Chronicle
