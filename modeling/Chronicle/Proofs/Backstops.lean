import Chronicle.Proofs.Completion
import Chronicle.Proofs.Judgement
import Chronicle.Proofs.Past

/-!
# Backstops that are not reached

Tables refuse what would break them, and an operation that comes to such a refusal ends with it. In
every store that a run can lead to no operation does, except where it comes to a commit that would
give a record a version that cannot be stored (`Reachable.backstops_unreached`). Every other refusal
lies in what was asked for, or in what others have stored since.
-/

namespace Chronicle

open Descriptor (standard)

/-! ## Orderly answers -/

/-- An answer is a result, or a refusal for an ordinary cause; or, exactly where `exhausts` is so,
that a version is out of range. -/
inductive Orderly {α : Type} (exhausts : Prop) : Except Refusal α → Prop
  | carried (within : ¬ exhausts) (value : α) : Orderly exhausts (.ok value)
  | refused (within : ¬ exhausts) {refusal : Refusal} (ordinary : refusal.Ordinary) :
      Orderly exhausts (.error refusal)
  | exhausted (beyond : exhausts) :
      Orderly exhausts (.error (.store (.outOfRange .version versionLimit)))

/-- Items in turn meet something if one of them does, where those before it have led. -/
def Meets {ε σ α β : Type} (step : α → σ → Except ε (β × σ)) (meets : α → σ → Prop) :
    List α → σ → Prop
  | [], _ => False
  | item :: rest, state => meets item state ∨
      ∃ result next, step item state = .ok (result, next) ∧ Meets step meets rest next

namespace Orderly

variable {α β σ : Type} {exhausts : Prop}

/-- Where no version is out of range, a refusal has an ordinary cause. -/
theorem ordinary {answer : Except Refusal α} (orderly : Orderly exhausts answer)
    (within : ¬ exhausts) {refusal : Refusal} (refused : answer = .error refusal) :
    refusal.Ordinary := by
  cases orderly with
  | carried _ value => cases refused
  | refused _ ordinary =>
      cases refused
      exact ordinary
  | exhausted beyond => exact absurd beyond within

theorem congr {others : Prop} {answer : Except Refusal α} (orderly : Orderly exhausts answer)
    (same : exhausts ↔ others) : Orderly others answer :=
  propext same ▸ orderly

/-- What follows a part that exhausts nothing decides. -/
theorem after {later : α → Prop} {first : Except Refusal α} {rest : α → Except Refusal β}
    (head : Orderly False first)
    (tail : ∀ value, first = .ok value → Orderly (later value) (rest value)) :
    Orderly (∃ value, first = .ok value ∧ later value) (first >>= rest) := by
  cases head with
  | carried _ value =>
      refine (tail value rfl).congr ⟨fun beyond => ⟨value, rfl, beyond⟩, ?_⟩
      rintro ⟨_, ⟨⟩, beyond⟩
      exact beyond
  | refused _ ordinary => exact .refused (fun ⟨_, impossible, _⟩ => nomatch impossible) ordinary
  | exhausted beyond => exact beyond.elim

/-- What follows exhausts nothing, so that the first part decides. -/
theorem alone {first : Except Refusal α} {rest : α → Except Refusal β}
    (head : Orderly exhausts first)
    (tail : ∀ value, first = .ok value → Orderly False (rest value)) :
    Orderly exhausts (first >>= rest) := by
  cases head with
  | carried within value =>
      exact (tail value rfl).congr ⟨False.elim, within⟩
  | refused within ordinary => exact .refused within ordinary
  | exhausted beyond => exact .exhausted beyond

/-- Either part may come to a version that is out of range. -/
theorem bind {later : α → σ → Prop} {first : Except Refusal (α × σ)}
    {rest : α × σ → Except Refusal β} (head : Orderly exhausts first)
    (tail : ∀ value state, first = .ok (value, state) →
      Orderly (later value state) (rest (value, state))) :
    Orderly (exhausts ∨ ∃ value state, first = .ok (value, state) ∧ later value state)
      (first >>= rest) := by
  cases head with
  | carried within done =>
      obtain ⟨value, state⟩ := done
      refine (tail value state rfl).congr ⟨fun beyond => Or.inr ⟨value, state, rfl, beyond⟩, ?_⟩
      rintro (beyond | ⟨_, _, ⟨⟩, beyond⟩)
      · exact absurd beyond within
      · exact beyond
  | refused within ordinary =>
      refine .refused ?_ ordinary
      rintro (beyond | ⟨_, _, impossible, _⟩)
      · exact within beyond
      · cases impossible
  | exhausted beyond => exact .exhausted (Or.inl beyond)

theorem map {first : Except Refusal α} (orderly : Orderly exhausts first) (change : α → β) :
    Orderly exhausts (first >>= fun value => pure (change value)) :=
  orderly.alone fun value _ => .carried not_false (change value)

theorem eachTest {test : α → Except Refusal Unit} {items : List α}
    (each : ∀ item ∈ items, Orderly False (test item)) : Orderly False (items.forM test) := by
  induction items with
  | nil => exact .carried not_false ()
  | cons first rest ih =>
      obtain ⟨head, tail⟩ := List.forall_mem_cons.mp each
      exact head.alone fun _ _ => ih tail

/-- If each item is orderly wherever the earlier ones have led, all of them in turn are. -/
theorem eachInTurn (motive : σ → Prop) {step : α → σ → Except Refusal (β × σ)}
    {meets : α → σ → Prop} {items : List α}
    (each : ∀ item ∈ items, ∀ state, motive state → Orderly (meets item state) (step item state))
    (keeps : ∀ item ∈ items, ∀ state result next, motive state →
      step item state = .ok (result, next) → motive next)
    {state : σ} (kept : motive state) :
    Orderly (Meets step meets items state) (inTurn step items state) := by
  induction items generalizing state with
  | nil => exact .carried not_false _
  | cons item rest ih =>
      refine (each item List.mem_cons_self state kept).bind fun result next done => ?_
      refine (ih (fun later listed => each later (List.mem_cons_of_mem item listed))
        (fun later listed => keeps later (List.mem_cons_of_mem item listed))
        (keeps item List.mem_cons_self state result next kept done)).map _

theorem eachNever (motive : σ → Prop) {step : α → σ → Except Refusal (β × σ)} {items : List α}
    (each : ∀ item ∈ items, ∀ state, motive state → Orderly False (step item state))
    (keeps : ∀ item ∈ items, ∀ state result next, motive state →
      step item state = .ok (result, next) → motive next)
    {state : σ} (kept : motive state) : Orderly False (inTurn step items state) := by
  refine (eachInTurn motive each keeps kept).congr ⟨?_, False.elim⟩
  clear each keeps kept
  induction items generalizing state with
  | nil => exact id
  | cons item rest ih =>
      rintro (impossible | ⟨_, _, _, later⟩)
      · exact impossible
      · exact ih later

theorem transact {step : Step α} {store : Store} (orderly : Orderly exhausts (step store)) :
    Orderly exhausts (Step.transact step store).1 := by
  unfold Step.transact
  revert orderly
  generalize step store = answer
  intro orderly
  cases orderly with
  | carried within done => exact .carried within _
  | refused within ordinary => exact .refused within ordinary
  | exhausted beyond => exact .exhausted beyond

end Orderly

/-! ## Commits -/

/-- The content of a story that loses an item. -/
def Content.withoutItem (content : Content) (item : EntityId) : Content :=
  match content.relations.get? itemRelation with
  | none => content
  | some members => content.setMembers itemRelation (members.filter fun member => member ≠ item)

namespace Env

variable {env : Env} {store : Store}

theorem apply_orderly (registered : env.registry = .standard) (started : ¬ env.now < 0)
    (chained : store.Chained) (kind : Kind) (id : EntityId) (proposed : Option Content)
    (attribution : Attribution) :
    Orderly (store.Exhausts kind id proposed) (env.apply kind id proposed attribution store) := by
  have rows := chained.traced.recorded.rows
  by_cases exhausts : store.Exhausts kind id proposed
  · rw [apply_of_exhausts registered started chained exhausts]
    exact .exhausted exhausts
  · by_cases admits : store.Admits kind id proposed
    · have bounded : (changeTo store kind id proposed).isMaterial = true →
          store.counter id + 1 < versionLimit := by
        intro material
        -- the version that a record has is in range, so the next one is at most the limit itself
        have reached := rows.counter_lt id
        have further : store.counter id + 1 ≠ versionLimit :=
          fun last => exhausts ⟨admits, material, last⟩
        omega
      obtain ⟨outcome, after, applied⟩ := apply_carried registered started chained admits bounded
      rw [applied]
      exact .carried exhausts _
    · obtain ⟨refusal, ordinary, refused⟩ := apply_of_not_admits registered rows admits
      rw [refused]
      exact .refused exhausts ordinary

theorem live_orderly (registered : env.registry = .standard) (store : Store) (kind : Kind)
    (id : EntityId) : Orderly False (env.live store kind id) := by
  unfold live
  rw [record?_standard registered]
  split
  · exact .refused not_false trivial
  · rename_i row found
    split
    · exact .refused not_false trivial
    · split
      · exact .refused not_false trivial
      · rename_i notDeleted _
        simp only [found, Option.filter, notDeleted]
        exact .carried not_false _

/-! ## Applying a submission -/

/-- Taking an item out of a story comes to a version that is out of range. -/
def DetachExhausts (env : Env) (item owner : EntityId) (store : Store) : Prop :=
  ∃ story, env.live store .story owner = .ok story ∧
    store.Exhausts .story owner (some (story.content.withoutItem item))

/-- Applying an item does: committing it, or taking it out of one of the other stories. -/
def ItemExhausts (env : Env) (story : EntityId) (attribution : Attribution) (item : Bundle)
    (store : Store) : Prop :=
  store.Exhausts .newsItem item.id (some item.content) ∨
    ∃ outcome next,
      env.apply .newsItem item.id (some item.content) attribution store = .ok (outcome, next) ∧
      Meets (env.detach item.id attribution) (env.DetachExhausts item.id)
        ((next.owners item.id itemRelation).filter fun owner => owner ≠ story) next

/-- Applying a story does: one of its attributes, one of its items, or the story itself. -/
def StoryExhausts (env : Env) (attribution : Attribution) (bundle : StoryBundle) (store : Store) :
    Prop :=
  Meets (fun sent : Bundle => env.apply .attr sent.id (some sent.content) attribution)
      (fun sent store => store.Exhausts .attr sent.id (some sent.content)) bundle.attributes store ∨
    ∃ attributes next,
      inTurn (fun sent : Bundle => env.apply .attr sent.id (some sent.content) attribution)
        bundle.attributes store = .ok (attributes, next) ∧
      (Meets (env.applyItem bundle.id attribution) (env.ItemExhausts bundle.id attribution)
          bundle.items next ∨
        ∃ items last, inTurn (env.applyItem bundle.id attribution) bundle.items next =
            .ok (items, last) ∧
          last.Exhausts .story bundle.id (some bundle.proposed))

theorem detach_orderly (registered : env.registry = .standard) (started : ¬ env.now < 0)
    (chained : store.Chained) (item : EntityId) (attribution : Attribution) (owner : EntityId) :
    Orderly (env.DetachExhausts item owner store) (env.detach item attribution owner store) :=
  (env.live_orderly registered store .story owner).after fun story _ =>
    apply_orderly registered started chained .story owner (some (story.content.withoutItem item))
      attribution

theorem applyItem_orderly (registered : env.registry = .standard) (started : ¬ env.now < 0)
    (chained : store.Chained) (story : EntityId) (attribution : Attribution) (item : Bundle) :
    Orderly (env.ItemExhausts story attribution item store)
      (env.applyItem story attribution item store) := by
  refine (apply_orderly registered started chained .newsItem item.id (some item.content)
    attribution).bind fun outcome next applied => ?_
  refine (Orderly.eachInTurn Store.Chained (fun owner _ state before =>
    detach_orderly registered started before item.id attribution owner) ?_ ?_).map _
  · intro owner _ state outcome after before detached
    obtain ⟨_, _, committed⟩ := detach_eq_ok detached
    exact before.move registered (.applied committed)
  · exact chained.move registered (.applied applied)

theorem applyStory_orderly (registered : env.registry = .standard) (started : ¬ env.now < 0)
    (chained : store.Chained) (attribution : Attribution) (bundle : StoryBundle) :
    Orderly (env.StoryExhausts attribution bundle store)
      (env.applyStory attribution bundle store) := by
  refine (Orderly.eachInTurn Store.Chained (fun sent _ state before =>
    apply_orderly registered started before .attr sent.id (some sent.content) attribution)
    (fun _ _ _ _ _ before applied => before.along registered (apply_trail applied))
    chained).bind ?_
  intro attributes next attributesApplied
  have nextChained : next.Chained :=
    chained.along registered (.of_inTurn (fun _ _ _ _ => apply_trail) attributesApplied)
  refine (Orderly.eachInTurn Store.Chained (fun item _ state before =>
    applyItem_orderly registered started before bundle.id attribution item)
    (fun _ _ _ _ _ before applied => before.along registered (applyItem_trail applied))
    nextChained).bind ?_
  intro items last itemsApplied
  have lastChained : last.Chained :=
    nextChained.along registered (.of_inTurn (fun _ _ _ _ => applyItem_trail) itemsApplied)
  exact (apply_orderly registered started lastChained .story bundle.id (some bundle.proposed)
    attribution).map _

/-! ## Judging a submission -/

theorem stale?_orderly (registered : env.registry = .standard) (store : Store) (kind : Kind)
    (sent : Bundle) : Orderly False (env.stale? store kind sent) := by
  unfold stale?
  rw [record?_standard registered, descriptor_standard registered]
  refine (Orderly.carried not_false _).alone fun found _ => ?_
  cases found with
  | none => exact .carried not_false _
  | some record =>
      dsimp only
      split
      · exact .refused not_false trivial
      · split
        · exact .carried not_false _
        · exact .carried not_false _

theorem judge_orderly (registered : env.registry = .standard) (started : ¬ env.now < 0)
    (rows : store.SoundRows) (sound : store.SoundConflicts) (scope : Scope) {kind : Kind}
    {parent : Option Parent} (parentFits : parent.isSome = !decide (kind = .story)) {sent : Bundle}
    (bounded : ∀ version, sent.base = some version → version < versionLimit) :
    Orderly False (env.judge scope kind parent sent store) := by
  refine (env.stale?_orderly registered store kind sent).alone fun outdated looked => ?_
  cases outdated with
  | none => exact .carried not_false _
  | some record =>
      obtain ⟨row, found, rfl, rfl⟩ := stale?_found registered rows looked
      obtain ⟨summary, after, noticed, _⟩ := noticeConflict_carried registered started sound found
        (rows sent.id row found).bounded scope bounded sent.content parentFits
      dsimp only
      rw [noticed]
      exact .carried not_false _

theorem validateStory_orderly (registered : env.registry = .standard) (bundle : StoryBundle) :
    Orderly False (env.validateStory bundle) := by
  have validate (kind : Kind) (content : Content) : Orderly False (env.validate kind content) := by
    unfold Env.validate
    rw [descriptor_standard registered]
    change Orderly False (((standard kind).check content).mapError Refusal.invalidContent)
    cases (standard kind).check content with
    | error fault => exact .refused not_false trivial
    | ok _ => exact .carried not_false ()
  refine (validate .story bundle.proposed).alone fun _ _ => ?_
  refine Orderly.alone (.eachTest fun sent _ => validate .newsItem sent.content) fun _ _ => ?_
  exact .eachTest fun sent _ => validate .attr sent.content

theorem judgeMembers_orderly (registered : env.registry = .standard) (started : ¬ env.now < 0)
    (both : store.SoundRows ∧ store.SoundConflicts) (scope : Scope) {kind : Kind}
    (member : kind ≠ .story) (parent : Parent) {sent : List Bundle}
    (bounded : ∀ bundle ∈ sent, ∀ version, bundle.base = some version → version < versionLimit) :
    Orderly False (inTurn (env.judge scope kind (some parent)) sent store) := by
  refine Orderly.eachNever (fun store => store.SoundRows ∧ store.SoundConflicts)
    (fun bundle listed state before => ?_)
    (fun _ _ _ _ _ before judged => Store.sound_along registered before (judge_trail judged)) both
  refine judge_orderly registered started before.1 before.2 scope ?_ (bounded bundle listed)
  rw [decide_eq_false member]
  rfl

theorem judgeStory_orderly (registered : env.registry = .standard) (started : ¬ env.now < 0)
    (both : store.SoundRows ∧ store.SoundConflicts) (scope : Scope) {bundle : StoryBundle}
    (bounded : ∀ mention ∈ bundle.mentions, ∀ version, mention.sent.base = some version →
      version < versionLimit) :
    Orderly False (env.judgeStory scope bundle store) := by
  refine (validateStory_orderly registered bundle).alone fun _ _ => ?_
  refine (judge_orderly registered started both.1 both.2 scope (show none.isSome = _ from rfl)
    (bounded _ List.mem_cons_self)).alone ?_
  rintro ⟨story, afterStory⟩ storyJudged
  have storySound := Store.sound_along registered both (judge_trail storyJudged)
  have toItems := Store.sound_along registered storySound (Store.withdrawDropped_trail env
    afterStory .newsItem scope bundle.id (bundle.items.map Bundle.id))
  refine (judgeMembers_orderly registered started toItems scope (by decide)
    ⟨bundle.id, bundle.proposed⟩ fun sent listed =>
      bounded _ (StoryBundle.item_mem_mentions listed)).alone ?_
  rintro ⟨items, afterItems⟩ itemsJudged
  have itemsSound := Store.sound_along registered toItems
    (.of_inTurn (fun _ _ _ _ => judge_trail) itemsJudged)
  have toAttributes := Store.sound_along registered itemsSound (Store.withdrawDropped_trail env
    afterItems .attr scope bundle.id (bundle.attributes.map Bundle.id))
  exact (judgeMembers_orderly registered started toAttributes scope (by decide)
    ⟨bundle.id, bundle.proposed⟩ fun sent listed =>
      bounded _ (StoryBundle.attr_mem_mentions (Bundle.mem_firsts listed))).map _

/-! ## Operations -/

/-- A submission comes to a version that is out of range: nothing of it is in conflict, and applying
one of its stories does. -/
def SubmissionExhausts (env : Env) (submission : Submission) (store : Store) : Prop :=
  ∃ summaries judged,
    inTurn (env.judgeStory submission.scope) submission.stories store = .ok (summaries, judged) ∧
    summaries.flatten = [] ∧
    Meets (env.applyStory ⟨submission.actor, .external submission.scope⟩)
      (env.StoryExhausts ⟨submission.actor, .external submission.scope⟩) submission.stories judged

/-- Changing the content of a live record does. -/
def EditExhausts (env : Env) (kind : Kind) (id : EntityId) (edit : Content → Content)
    (store : Store) : Prop :=
  ∃ record, env.live store kind id = .ok record ∧
    store.Exhausts kind id (some (edit record.content))

theorem judgeAndApply_orderly (registered : env.registry = .standard) (started : ¬ env.now < 0)
    (chained : store.Chained) (sound : store.SoundConflicts) {submission : Submission}
    (storable : submission.Storable) :
    Orderly (env.SubmissionExhausts submission store) (env.judgeAndApply submission store) := by
  have both : store.SoundRows ∧ store.SoundConflicts := ⟨chained.traced.recorded.rows, sound⟩
  have judging : Orderly False
      (inTurn (env.judgeStory submission.scope) submission.stories store) := by
    refine Orderly.eachNever (fun store => store.SoundRows ∧ store.SoundConflicts)
      (fun bundle listed state before => ?_)
      (fun _ _ _ _ _ before judged => Store.sound_along registered before (judgeStory_trail judged))
      both
    exact judgeStory_orderly registered started before submission.scope fun mention mentioned =>
      storable mention (List.mem_flatMap.mpr ⟨bundle, listed, mentioned⟩)
  refine Orderly.congr (judging.bind fun summaries next judged => ?_) (Iff.of_eq (false_or _))
  have nextChained : next.Chained :=
    chained.along registered (.of_inTurn (fun _ _ _ _ => judgeStory_trail) judged)
  dsimp only
  cases summaries.flatten with
  | nil =>
      refine (Orderly.congr ?_ ⟨fun beyond => ⟨rfl, beyond⟩, And.right⟩).map _
      refine Orderly.eachInTurn Store.Chained (fun bundle _ state before =>
        applyStory_orderly registered started before _ bundle) ?_ nextChained
      intro bundle _ state applied after before done
      exact before.along registered (applyStory_trail done)
  | cons first rest =>
      refine .carried ?_ _
      rintro ⟨impossible, _⟩
      cases impossible

theorem commit_orderly (registered : env.registry = .standard) (started : ¬ env.now < 0)
    (chained : store.Chained) (kind : Kind) (id : EntityId) (proposed : Option Content)
    (attribution : Attribution) :
    Orderly (store.Exhausts kind id proposed) (env.commit kind id proposed attribution store).1 :=
  (apply_orderly registered started chained kind id proposed attribution).transact

theorem modify_orderly (registered : env.registry = .standard) (started : ¬ env.now < 0)
    (chained : store.Chained) (kind : Kind) (id : EntityId) (attribution : Attribution)
    (edit : Content → Content) :
    Orderly (env.EditExhausts kind id edit store)
      (env.modify kind id attribution edit store).1 := by
  refine Orderly.transact ?_
  exact (env.live_orderly registered store kind id).after fun record _ =>
    apply_orderly registered started chained kind id (some (edit record.content)) attribution

theorem submit_orderly (registered : env.registry = .standard) (started : ¬ env.now < 0)
    (chained : store.Chained) (sound : store.SoundConflicts) {submission : Submission}
    (storable : submission.Storable) :
    Orderly (env.SubmissionExhausts submission store) (env.submit submission store).1 := by
  have orderly := judgeAndApply_orderly registered started chained sound storable
  rw [submit_eq]
  generalize env.judgeAndApply submission store = answer at orderly
  cases orderly with
  | carried within done =>
      obtain ⟨conflicts | applied, after⟩ := done
      · exact .refused within trivial
      · exact .carried within applied
  | refused within ordinary => exact .refused within ordinary
  | exhausted beyond => exact .exhausted beyond

theorem resolve_orderly (registered : env.registry = .standard) (started : ¬ env.now < 0)
    (chained : store.Chained) (kind : Kind) (id : EntityId) (resolution : Resolution)
    (actor : Actor) :
    Orderly ((store.conflict? kind id).isSome = true ∧
        env.EditExhausts kind id resolution.applyTo store)
      (env.resolve kind id resolution actor store).1 := by
  refine Orderly.transact ?_
  cases store.conflict? kind id with
  | none =>
      refine .refused ?_ trivial
      rintro ⟨impossible, _⟩
      cases impossible
  | some pending =>
      refine Orderly.congr ?_ ⟨fun beyond => ⟨rfl, beyond⟩, And.right⟩
      refine (env.live_orderly registered store kind id).after fun record _ => ?_
      refine (apply_orderly registered started chained kind id
        (some (resolution.applyTo record.content)) ⟨actor, .resolution pending.id⟩).alone ?_
      rintro ⟨outcome, next⟩ _
      exact (env.live_orderly registered (next.deleteConflictsFor kind id).2 kind id).map _

end Env

/-! ## Reachable stores -/

/-- Every operation answers with a result, or is refused for an ordinary cause; or, exactly where a
commit that it comes to would give its record a version that cannot be stored, is refused for that.
A submission has to declare versions that can be stored. -/
structure Env.AnswersOrderly (env : Env) (store : Store) : Prop where
  commit : ∀ kind id proposed attribution,
    Orderly (store.Exhausts kind id proposed) (env.commit kind id proposed attribution store).1
  create : ∀ kind content attribution,
    Orderly ((store.newEntityId env.generator).2.Exhausts kind (store.newEntityId env.generator).1
        (some content))
      (env.create kind content attribution store).1
  modify : ∀ kind id attribution edit,
    Orderly (env.EditExhausts kind id edit store) (env.modify kind id attribution edit store).1
  delete : ∀ kind id attribution,
    Orderly (store.Exhausts kind id none) (env.delete kind id attribution store).1
  submit : ∀ submission : Submission, submission.Storable →
    Orderly (env.SubmissionExhausts submission store) (env.submit submission store).1
  resolve : ∀ kind id resolution actor,
    Orderly ((store.conflict? kind id).isSome = true ∧
        env.EditExhausts kind id resolution.applyTo store)
      (env.resolve kind id resolution actor store).1

/-- In every store that a run can lead to, no operation ends with what a table refuses, unless it
comes to a version that is out of range. -/
theorem Reachable.backstops_unreached {store : Store} (reachable : Reachable .standard store)
    {env : Env} (registered : env.registry = .standard) (started : ¬ env.now < 0) :
    env.AnswersOrderly store := by
  have chained := reachable.chained
  refine ⟨?_, ?_, ?_, ?_, ?_, ?_⟩
  · exact Env.commit_orderly registered started chained
  · intro kind content attribution
    have drawn : (store.newEntityId env.generator).2.Chained :=
      chained.move registered (.drawn _ (List.suffix_cons _ _))
    exact Env.commit_orderly registered started drawn kind _ (some content) attribution
  · exact Env.modify_orderly registered started chained
  · intro kind id attribution
    exact Env.commit_orderly registered started chained kind id none attribution
  · intro submission storable
    exact Env.submit_orderly registered started chained reachable.sound.2 storable
  · exact Env.resolve_orderly registered started chained

/-- The renamed tag has reached its second version: whatever is committed to it is refused for an
ordinary cause, if at all. -/
theorem backstops_unreached_withRenamedTag :
    Reachable .standard .withRenamedTag ∧ ¬ (0 : Int64) < 0 ∧
    Env.AnswersOrderly ⟨.standard, 3, 0⟩ .withRenamedTag ∧
    ∀ kind proposed attribution refusal,
      (Env.commit ⟨.standard, 3, 0⟩ kind ⟨⟨1⟩⟩ proposed attribution .withRenamedTag).1 =
        .error refusal → refusal.Ordinary := by
  have reachable : Reachable .standard .withRenamedTag := reachable_following ⟨.standard, 3, 0⟩ _
  have started : ¬ (0 : Int64) < 0 := by decide
  have answers : Env.AnswersOrderly ⟨.standard, 3, 0⟩ .withRenamedTag :=
    reachable.backstops_unreached rfl started
  have reached : Store.withRenamedTag.counter ⟨⟨1⟩⟩ = 2 := by decide +kernel
  refine ⟨reachable, started, answers, fun kind proposed attribution refusal refused => ?_⟩
  refine (answers.commit kind ⟨⟨1⟩⟩ proposed attribution).ordinary ?_ refused
  rintro ⟨_, _, last⟩
  rw [reached] at last
  cases last

end Chronicle
