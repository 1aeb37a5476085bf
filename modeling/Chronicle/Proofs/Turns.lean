import Chronicle.Proofs.Disputes

/-!
# The turns of a judgement

A submission is judged in turns: a mention is judged, or the conflicts of members that a story is
not sent with any more are dropped. Judging story by story is taking all turns one after another
(`Env.judgeStories_eq_turns`), so what is said of one turn is said of a whole submission by one
induction.
-/

namespace Chronicle

open Descriptor (standard)

/-! ## Turns -/

/-- What an item or attribute of a story is sent with; the story itself has no parent. -/
def StoryBundle.parentFor (bundle : StoryBundle) : Kind → Option Parent
  | .story => none
  | .newsItem => some ⟨bundle.id, bundle.proposed⟩
  | .attr => some ⟨bundle.id, bundle.proposed⟩

/-- The items or the attributes that a story is sent with. -/
def StoryBundle.memberIds (bundle : StoryBundle) : Kind → List EntityId
  | .story => []
  | .newsItem => bundle.items.map Bundle.id
  | .attr => bundle.attributes.map Bundle.id

/-- One thing that is done about conflicts while a submission is judged. -/
inductive Turn where
  /-- The conflict of a mention is noticed, or withdrawn if it has none. -/
  | judge (bundle : StoryBundle) (mention : Mention)
  /-- The conflicts of members that a story had and has no more are dropped. -/
  | drop (bundle : StoryBundle) (kind : Kind)
  deriving DecidableEq

/-- The turns of a story: its own, then those of its items, then those of its attributes. -/
def StoryBundle.turns (bundle : StoryBundle) : List Turn :=
  .judge bundle ⟨.story, bundle.sent⟩ :: .drop bundle .newsItem ::
    ((bundle.items.map fun sent => Turn.judge bundle ⟨.newsItem, sent⟩) ++
      .drop bundle .attr ::
        (Bundle.firsts bundle.attributes).map fun sent => Turn.judge bundle ⟨.attr, sent⟩)

def Submission.turns (submission : Submission) : List Turn :=
  submission.stories.flatMap StoryBundle.turns

namespace Turn

/-- The mention that is judged. -/
def mention? : Turn → Option Mention
  | judge _ mention => some mention
  | drop _ _ => none

/-- The stored row that a conflict is noticed with. -/
def told? (store : Store) : Turn → Option EntityRow
  | judge _ mention => mention.divergent? store
  | drop _ _ => none

/-- The record that a turn notices a conflict of. -/
def tells? (store : Store) : Turn → Option (Kind × EntityId)
  | judge _ mention => (mention.divergent? store).map fun _ => mention.name
  | drop _ _ => none

/-- Whether a turn notices a conflict of the record with this name. -/
def Tells (store : Store) (name : Kind × EntityId) (turn : Turn) : Prop :=
  turn.tells? store = some name

instance (store : Store) (name : Kind × EntityId) (turn : Turn) :
    Decidable (turn.Tells store name) := by
  unfold Tells
  infer_instance

theorem tells_iff {store : Store} {name : Kind × EntityId} {turn : Turn} :
    turn.Tells store name ↔ ∃ bundle mention row, turn = .judge bundle mention ∧
      mention.divergent? store = some row ∧ mention.name = name := by
  cases turn with
  | judge bundle mention =>
      rw [Tells, tells?, Option.map_eq_some_iff]
      constructor
      · rintro ⟨row, told, named⟩
        exact ⟨bundle, mention, row, rfl, told, named⟩
      · rintro ⟨_, _, row, same, told, named⟩
        obtain ⟨rfl, rfl⟩ := judge.inj same
        exact ⟨row, told, named⟩
  | drop bundle kind =>
      constructor
      · rintro ⟨⟩
      · rintro ⟨_, _, _, impossible, _⟩
        cases impossible

/-- Whether what was sent can be stored for its kind. -/
def Accepted : Turn → Prop
  | judge _ mention => (standard mention.kind).check mention.sent.content = .ok ()
  | drop _ _ => True

end Turn

theorem StoryBundle.judge_mem_turns {bundle other : StoryBundle} {mention : Mention} :
    Turn.judge other mention ∈ bundle.turns ↔ other = bundle ∧ mention ∈ bundle.judged := by
  simp only [turns, judged, List.mem_cons, List.mem_append, List.mem_map, Turn.judge.injEq,
    reduceCtorEq, false_or]
  constructor
  · rintro (⟨rfl, rfl⟩ | ⟨sent, isItem, rfl, rfl⟩ | ⟨sent, isAttr, rfl, rfl⟩)
    · exact ⟨rfl, Or.inl rfl⟩
    · exact ⟨rfl, Or.inr (Or.inl ⟨sent, isItem, rfl⟩)⟩
    · exact ⟨rfl, Or.inr (Or.inr ⟨sent, isAttr, rfl⟩)⟩
  · rintro ⟨rfl, rfl | ⟨sent, isItem, rfl⟩ | ⟨sent, isAttr, rfl⟩⟩
    · exact Or.inl ⟨rfl, rfl⟩
    · exact Or.inr (Or.inl ⟨sent, isItem, rfl, rfl⟩)
    · exact Or.inr (Or.inr ⟨sent, isAttr, rfl, rfl⟩)

theorem StoryBundle.drop_mem_turns {bundle other : StoryBundle} {kind : Kind} :
    Turn.drop other kind ∈ bundle.turns ↔ other = bundle ∧ kind ≠ .story := by
  simp only [turns, List.mem_cons, List.mem_append, List.mem_map, Turn.drop.injEq, reduceCtorEq,
    and_false, exists_false, or_false, false_or, ← and_or_left]
  refine and_congr_right fun _ => ?_
  cases kind <;> decide

/-- Each mention that is judged has its turn. -/
theorem StoryBundle.turns_mentions (bundle : StoryBundle) :
    bundle.turns.filterMap Turn.mention? = bundle.judged := by
  have judges (kind : Kind) (sent : List Bundle) :
      (sent.map fun sent => Turn.judge bundle ⟨kind, sent⟩).filterMap Turn.mention? =
        sent.map (Mention.mk kind) := by
    rw [List.filterMap_map]
    exact List.filterMap_eq_map (f := Mention.mk kind) ▸ rfl
  simp only [turns, judged, List.filterMap_cons, List.filterMap_append, judges, Turn.mention?]

theorem Submission.judge_mem_turns {submission : Submission} {bundle : StoryBundle}
    {mention : Mention} :
    Turn.judge bundle mention ∈ submission.turns ↔
      bundle ∈ submission.stories ∧ mention ∈ bundle.judged := by
  rw [turns, List.mem_flatMap]
  constructor
  · rintro ⟨other, sent, listed⟩
    obtain ⟨rfl, judged⟩ := StoryBundle.judge_mem_turns.mp listed
    exact ⟨sent, judged⟩
  · rintro ⟨sent, judged⟩
    exact ⟨bundle, sent, StoryBundle.judge_mem_turns.mpr ⟨rfl, judged⟩⟩

theorem Submission.drop_mem_turns {submission : Submission} {bundle : StoryBundle} {kind : Kind} :
    Turn.drop bundle kind ∈ submission.turns ↔ bundle ∈ submission.stories ∧ kind ≠ .story := by
  rw [turns, List.mem_flatMap]
  constructor
  · rintro ⟨other, sent, listed⟩
    obtain ⟨rfl, member⟩ := StoryBundle.drop_mem_turns.mp listed
    exact ⟨sent, member⟩
  · rintro ⟨sent, member⟩
    exact ⟨bundle, sent, StoryBundle.drop_mem_turns.mpr ⟨rfl, member⟩⟩

theorem Submission.turns_mentions (submission : Submission) :
    submission.turns.filterMap Turn.mention? = submission.judged := by
  rw [turns, judged, List.filterMap_flatMap]
  exact List.flatMap_congr fun bundle _ => bundle.turns_mentions

/-! ## Taking turns -/

namespace Env

variable {env : Env} {scope : Scope} {store after : Store}

/-- Takes one turn. -/
def take (env : Env) (scope : Scope) : Turn → Step (Option ConflictSummary)
  | .judge bundle mention =>
      env.judge scope mention.kind (bundle.parentFor mention.kind) mention.sent
  | .drop bundle kind => fun store =>
      .ok (none, store.withdrawDropped kind scope bundle.id (bundle.memberIds kind))

theorem take_trail {turn : Turn} {answer : Option ConflictSummary}
    (taken : env.take scope turn store = .ok (answer, after)) :
    Trail env.registry store after := by
  cases turn with
  | judge bundle mention => exact judge_trail taken
  | drop bundle kind =>
      cases taken
      exact Store.withdrawDropped_trail env store kind scope bundle.id (bundle.memberIds kind)

/-- The parts of a story that was judged are what its turns do. -/
theorem inTurn_turns_eq_ok {bundle : StoryBundle} {answers : List (Option ConflictSummary)} :
    inTurn (env.take scope) bundle.turns store = .ok (answers, after) ↔
      ∃ story items attributes afterStory afterItems,
        env.judge scope .story none bundle.sent store = .ok (story, afterStory) ∧
        inTurn (env.judge scope .newsItem (some ⟨bundle.id, bundle.proposed⟩)) bundle.items
          (afterStory.withdrawDropped .newsItem scope bundle.id (bundle.items.map Bundle.id)) =
          .ok (items, afterItems) ∧
        inTurn (env.judge scope .attr (some ⟨bundle.id, bundle.proposed⟩))
          (Bundle.firsts bundle.attributes)
          (afterItems.withdrawDropped .attr scope bundle.id (bundle.attributes.map Bundle.id)) =
          .ok (attributes, after) ∧
        answers = story :: none :: (items ++ none :: attributes) := by
  have drop (kind : Kind) {rest : List Turn} {state : Store}
      {answers : List (Option ConflictSummary)} :
      inTurn (env.take scope) (.drop bundle kind :: rest) state = .ok (answers, after) ↔
        ∃ others, inTurn (env.take scope) rest
          (state.withdrawDropped kind scope bundle.id (bundle.memberIds kind)) =
            .ok (others, after) ∧ answers = none :: others := by
    rw [inTurn_cons_eq_ok]
    constructor
    · rintro ⟨_, _, others, once, later, rfl⟩
      cases once
      exact ⟨others, later, rfl⟩
    · rintro ⟨others, later, rfl⟩
      exact ⟨none, _, others, rfl, later, rfl⟩
  have judges (kind : Kind) (sent : List Bundle) :
      inTurn (env.take scope) (sent.map fun sent => Turn.judge bundle ⟨kind, sent⟩) =
        inTurn (env.judge scope kind (bundle.parentFor kind)) sent :=
    funext fun state => inTurn_map _ _ sent state
  rw [StoryBundle.turns, inTurn_cons_eq_ok]
  simp only [drop, inTurn_append_eq_ok, judges]
  constructor
  · rintro ⟨story, afterStory, _, first, ⟨_, ⟨afterItems, items, _, second,
      ⟨attributes, third, rfl⟩, rfl⟩, rfl⟩, rfl⟩
    exact ⟨story, items, attributes, afterStory, afterItems, first, second, third, rfl⟩
  · rintro ⟨story, items, attributes, afterStory, afterItems, first, second, third, rfl⟩
    exact ⟨story, afterStory, _, first, ⟨_, ⟨afterItems, items, _, second,
      ⟨attributes, third, rfl⟩, rfl⟩, rfl⟩, rfl⟩

/-- A story is judged by taking its turns, once its contents have been accepted. -/
theorem judgeStory_eq_turns {bundle : StoryBundle} {told : List ConflictSummary} :
    env.judgeStory scope bundle store = .ok (told, after) ↔
      env.validateStory bundle = .ok () ∧ ∃ answers,
        inTurn (env.take scope) bundle.turns store = .ok (answers, after) ∧
        told = answers.filterMap fun answer => answer := by
  have same (story : Option ConflictSummary) (items attributes : List (Option ConflictSummary)) :
      ((story :: items ++ attributes).filterMap fun answer => answer) =
        (story :: none :: (items ++ none :: attributes)).filterMap fun answer => answer := by
    simp only [List.cons_append, List.filterMap_cons, List.filterMap_append]
  constructor
  · intro judged
    obtain ⟨story, items, attributes, afterStory, afterItems, valid, first, second, third, rfl⟩ :=
      judgeStory_eq_ok judged
    exact ⟨valid, _, inTurn_turns_eq_ok.mpr ⟨story, items, attributes, afterStory, afterItems, first,
      second, third, rfl⟩, same story items attributes⟩
  · rintro ⟨valid, answers, taken, rfl⟩
    obtain ⟨story, items, attributes, afterStory, afterItems, first, second, third, rfl⟩ :=
      inTurn_turns_eq_ok.mp taken
    unfold judgeStory
    simp only [bind_eq_ok, pure_eq_ok, Prod.exists, Prod.mk.injEq]
    exact ⟨(), valid, story, afterStory, first, items, afterItems, second, attributes, after, third,
      same story items attributes, rfl⟩

/-- Stories are judged by taking the turns of all of them, once their contents have been
accepted. -/
theorem judgeStories_eq_turns {bundles : List StoryBundle} {told : List ConflictSummary} :
    (∃ summaries, inTurn (env.judgeStory scope) bundles store = .ok (summaries, after) ∧
        summaries.flatten = told) ↔
      (∀ bundle ∈ bundles, env.validateStory bundle = .ok ()) ∧ ∃ answers,
        inTurn (env.take scope) (bundles.flatMap StoryBundle.turns) store = .ok (answers, after) ∧
        told = answers.filterMap fun answer => answer := by
  induction bundles generalizing store told with
  | nil =>
      constructor
      · rintro ⟨summaries, judged, rfl⟩
        obtain ⟨rfl, rfl⟩ := inTurn_nil_eq_ok.mp judged
        exact ⟨nofun, [], rfl, rfl⟩
      · rintro ⟨_, answers, taken, rfl⟩
        obtain ⟨rfl, rfl⟩ := inTurn_nil_eq_ok.mp taken
        exact ⟨[], rfl, rfl⟩
  | cons bundle rest ih =>
      rw [List.flatMap_cons, List.forall_mem_cons]
      constructor
      · rintro ⟨summaries, judged, rfl⟩
        obtain ⟨first, between, others, once, later, rfl⟩ := inTurn_cons_eq_ok.mp judged
        obtain ⟨valid, answers, taken, rfl⟩ := judgeStory_eq_turns.mp once
        obtain ⟨restValid, restAnswers, restTaken, same⟩ := ih.mp ⟨others, later, rfl⟩
        refine ⟨⟨valid, restValid⟩, answers ++ restAnswers,
          inTurn_append_eq_ok.mpr ⟨between, answers, restAnswers, taken, restTaken, rfl⟩, ?_⟩
        rw [List.flatten_cons, List.filterMap_append, same]
      · rintro ⟨⟨valid, restValid⟩, _, taken, rfl⟩
        obtain ⟨between, answers, restAnswers, first, later, rfl⟩ := inTurn_append_eq_ok.mp taken
        obtain ⟨others, judged, same⟩ := ih.mpr ⟨restValid, restAnswers, later, rfl⟩
        refine ⟨_, inTurn_cons_eq_ok.mpr ⟨_, between, others,
          judgeStory_eq_turns.mpr ⟨valid, answers, first, rfl⟩, judged, rfl⟩, ?_⟩
        rw [List.flatten_cons, List.filterMap_append, same]

/-! ## Submissions -/

/-- The contents of a submission are accepted, and taking all of its turns leads from the one
store to the other. -/
structure Judges (env : Env) (submission : Submission) (store : Store)
    (answers : List (Option ConflictSummary)) (judged : Store) : Prop where
  accepted : ∀ mention ∈ submission.mentions,
    (standard mention.kind).check mention.sent.content = .ok ()
  taken : inTurn (env.take submission.scope) submission.turns store = .ok (answers, judged)

variable {submission : Submission} {judged : Store}

theorem judges_iff (registered : env.registry = .standard) {told : List ConflictSummary} :
    (∃ summaries, inTurn (env.judgeStory submission.scope) submission.stories store =
        .ok (summaries, judged) ∧ summaries.flatten = told) ↔
      ∃ answers, env.Judges submission store answers judged ∧
        told = answers.filterMap fun answer => answer := by
  have valid : (∀ bundle ∈ submission.stories, env.validateStory bundle = .ok ()) ↔
      ∀ mention ∈ submission.mentions,
        (standard mention.kind).check mention.sent.content = .ok () := by
    simp only [validateStory_eq_ok registered, Submission.mentions, List.forall_mem_flatMap]
  rw [judgeStories_eq_turns, valid]
  constructor
  · rintro ⟨accepted, answers, taken, told⟩
    exact ⟨answers, ⟨accepted, taken⟩, told⟩
  · rintro ⟨answers, ⟨accepted, taken⟩, told⟩
    exact ⟨accepted, answers, taken, told⟩

/-- A submission is rejected if something is told about it, and is then left where its turns have
led. -/
theorem submit_eq_conflicting (registered : env.registry = .standard)
    {conflicts : List ConflictSummary} :
    env.submit submission store = (.error (.conflicting conflicts), after) ↔
      conflicts ≠ [] ∧ ∃ answers, env.Judges submission store answers after ∧
        conflicts = answers.filterMap fun answer => answer := by
  rw [← judges_iff registered]
  constructor
  · intro rejected
    rw [submit_eq] at rejected
    cases carried : env.judgeAndApply submission store with
    | error refusal =>
        rw [carried] at rejected
        have same : refusal = .conflicting conflicts :=
          Except.error.inj (congrArg Prod.fst rejected)
        rw [same] at carried
        exact absurd carried ((env.judgeAndApply_unconflicted submission store).ne conflicts)
    | ok answer =>
        obtain ⟨answer, last⟩ := answer
        rw [carried] at rejected
        obtain ⟨summaries, between, judged, ⟨_, _, rfl, _⟩ | ⟨told, rfl, rfl⟩⟩ :=
          judgeAndApply_eq_ok carried
        · cases rejected
        · cases rejected
          exact ⟨told, summaries, judged, rfl⟩
  · rintro ⟨told, summaries, judged, rfl⟩
    exact submit_of_told judged told

/-- A submission is accepted if nothing is told about it, and can then be applied. -/
theorem submit_eq_ok (registered : env.registry = .standard) {applied : List AppliedStory} :
    env.submit submission store = (.ok applied, after) ↔
      ∃ answers judged, env.Judges submission store answers judged ∧
        (∀ answer ∈ answers, answer = none) ∧
        inTurn (env.applyStory ⟨submission.actor, .external submission.scope⟩)
          submission.stories judged = .ok (applied, after) := by
  constructor
  · intro accepted
    rw [submit_eq] at accepted
    cases carried : env.judgeAndApply submission store with
    | error refusal =>
        rw [carried] at accepted
        cases accepted
    | ok answer =>
        obtain ⟨answer, last⟩ := answer
        rw [carried] at accepted
        obtain ⟨summaries, between, judged, ⟨quiet, _, rfl, done⟩ | ⟨_, rfl, _⟩⟩ :=
          judgeAndApply_eq_ok carried
        · cases accepted
          obtain ⟨answers, judges, none⟩ := (judges_iff registered).mp ⟨summaries, judged, quiet⟩
          exact ⟨answers, between, judges, List.filterMap_eq_nil_iff.mp none.symm, done⟩
        · cases accepted
  · rintro ⟨answers, judged, judges, none, done⟩
    obtain ⟨summaries, judgedAll, quiet⟩ := (judges_iff registered).mpr
      ⟨answers, judges, (List.filterMap_eq_nil_iff.mpr none).symm⟩
    have carried : env.judgeAndApply submission store = .ok (.inr applied, after) := by
      unfold judgeAndApply
      simp only [bind_eq_ok, Prod.exists]
      refine ⟨summaries, judged, judgedAll, ?_⟩
      rw [quiet]
      simp only [bind_eq_ok, pure_eq_ok, Prod.exists, Prod.mk.injEq]
      exact ⟨applied, after, done, rfl, rfl⟩
    rw [submit_eq, carried]

/-- A submission that is refused for another cause than conflicts leaves no trace. -/
theorem submit_of_refused {refusal : Refusal}
    (refused : (env.submit submission store).1 = .error refusal)
    (unconflicted : ∀ conflicts, refusal ≠ .conflicting conflicts) :
    (env.submit submission store).2 = store := by
  rw [submit_eq] at refused ⊢
  split at refused
  · rfl
  · rename_i conflicts _ _
    exact absurd (Except.error.inj refused).symm (unconflicted conflicts)
  · cases refused

end Env

end Chronicle
