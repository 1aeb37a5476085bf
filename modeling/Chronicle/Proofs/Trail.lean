import Chronicle.Proofs.Conflicts
import Chronicle.Proofs.Intake
import Chronicle.Run

/-!
# Trails

Every operation comes down to four things that happen to a store: a commit to one record, a
conflict that is noticed, conflicts that are no longer pending, and further identifiers that
are drawn. A trail is a sequence of these, and every run is one (`Trail.of_run`): what each of
the four keeps is true of every store that is reachable (`Reachable.keeps`).
-/

namespace Chronicle

/-- One thing that happens to a store. -/
inductive Move (env : Env) (store : Store) : Store → Prop where
  | applied {kind : Kind} {id : EntityId} {proposed : Option Content} {attribution : Attribution}
      {outcome : Outcome} {after : Store}
      (done : env.apply kind id proposed attribution store = .ok (outcome, after)) :
      Move env store after
  | noticed {kind : Kind} {bundle : Bundle} {record : Record} {scope : Scope}
      {parent : Option Parent} {summary : ConflictSummary} {after : Store}
      (outdated : env.stale? store kind bundle = .ok (some record))
      (done : env.noticeConflict record scope bundle.base bundle.content parent store =
        .ok (summary, after)) :
      Move env store after
  | withdrawn (stays : Kind × EntityId → Conflict → Bool) :
      Move env store { store with conflicts := store.conflicts.filter stays }
  | drawn (supply : Supply) (advances : store.supply.issued <:+ supply.issued) :
      Move env store { store with supply := supply }

/-- Only commits change records. -/
theorem Move.applied_or_keepsRecords {env : Env} {store after : Store} (move : Move env store after) :
    (∃ kind id proposed attribution outcome,
      env.apply kind id proposed attribution store = .ok (outcome, after)) ∨
    store.KeepsRecords after := by
  cases move with
  | applied done => exact Or.inl ⟨_, _, _, _, _, done⟩
  | noticed outdated done => exact Or.inr (Env.noticeConflict_keepsRecords done)
  | withdrawn stays => exact Or.inr rfl
  | drawn supply advances => exact Or.inr rfl

/-- A sequence of moves, each at its own time and with its own number of retries. -/
inductive Trail (registry : Registry) (first : Store) : Store → Prop where
  | start : Trail registry first first
  | move {store after : Store} {env : Env} (trail : Trail registry first store)
      (registered : env.registry = registry) (move : Move env store after) :
      Trail registry first after

namespace Trail

variable {registry : Registry} {first middle last : Store}

theorem single {env : Env} (registered : env.registry = registry) (move : Move env first last) :
    Trail registry first last :=
  .move .start registered move

theorem trans (early : Trail registry first middle) (late : Trail registry middle last) :
    Trail registry first last := by
  induction late with
  | start => exact early
  | move _ registered move ih => exact .move ih registered move

/-- What each move keeps is kept along a trail. -/
theorem keeps {motive : Store → Prop}
    (each : ∀ env before after, env.registry = registry → motive before → Move env before after →
      motive after)
    (trail : Trail registry first last) (kept : motive first) : motive last := by
  induction trail with
  | start => exact kept
  | move _ registered move ih => exact each _ _ _ registered ih move

theorem of_inTurn {ε α β : Type} {step : α → Store → Except ε (β × Store)} {items : List α}
    {results : List β}
    (each : ∀ item before result next, step item before = .ok (result, next) →
      Trail registry before next)
    (carried : inTurn step items first = .ok (results, last)) : Trail registry first last :=
  inTurn_keeps (motive := Trail registry first)
    (fun item _ before result next kept once => kept.trans (each item before result next once))
    .start carried

end Trail

/-! ## Conflicts -/

namespace Store

theorem deleteConflict_move (env : Env) (store : Store) (kind : Kind) (id : ConflictId) :
    Move env store (store.deleteConflict kind id) :=
  .withdrawn _

theorem withdrawConflict_trail (env : Env) (store : Store) (kind : Kind) (id : EntityId)
    (scope : Scope) : Trail env.registry store (store.withdrawConflict kind id scope) := by
  unfold withdrawConflict
  split
  · exact .start
  · split
    · exact .single rfl (deleteConflict_move env store kind _)
    · exact .start

theorem withdrawDropped_trail (env : Env) (store : Store) (kind : Kind) (scope : Scope)
    (story : EntityId) (sent : List EntityId) :
    Trail env.registry store (store.withdrawDropped kind scope story sent) := by
  unfold withdrawDropped
  dsimp only
  generalize (store.memberConflicts kind scope story).filter _ = dropped
  induction dropped generalizing store with
  | nil => exact .start
  | cons first rest ih =>
      exact (Trail.single rfl (deleteConflict_move env store kind first.id)).trans (ih _)

end Store

namespace Env

variable {env : Env} {store after : Store}

/-- A record that was judged has had its conflict noticed, or withdrawn if it has none. -/
theorem judge_eq_ok {scope : Scope} {kind : Kind} {parent : Option Parent} {bundle : Bundle}
    {summary : Option ConflictSummary}
    (judged : env.judge scope kind parent bundle store = .ok (summary, after)) :
    (env.stale? store kind bundle = .ok none ∧ summary = none ∧
      after = store.withdrawConflict kind bundle.id scope) ∨
    ∃ record noticed, env.stale? store kind bundle = .ok (some record) ∧
      summary = some noticed ∧
      env.noticeConflict record scope bundle.base bundle.content parent store =
        .ok (noticed, after) := by
  unfold judge at judged
  rw [bind_eq_ok] at judged
  obtain ⟨outdated, given, judged⟩ := judged
  cases outdated with
  | none =>
      rw [pure_eq_ok] at judged
      cases judged
      exact Or.inl ⟨given, rfl, rfl⟩
  | some record =>
      simp only [bind_eq_ok, pure_eq_ok, Prod.exists, Prod.mk.injEq] at judged
      obtain ⟨noticed, next, done, rfl, rfl⟩ := judged
      exact Or.inr ⟨record, noticed, given, rfl, done⟩

theorem judge_trail {scope : Scope} {kind : Kind} {parent : Option Parent} {bundle : Bundle}
    {summary : Option ConflictSummary}
    (judged : env.judge scope kind parent bundle store = .ok (summary, after)) :
    Trail env.registry store after := by
  obtain ⟨_, _, rfl⟩ | ⟨record, noticed, outdated, _, done⟩ := judge_eq_ok judged
  · exact Store.withdrawConflict_trail env store kind bundle.id scope
  · exact .single rfl (.noticed outdated done)

/-- The parts of a story that was judged, one after another. -/
theorem judgeStory_eq_ok {scope : Scope} {bundle : StoryBundle}
    {summaries : List ConflictSummary}
    (judged : env.judgeStory scope bundle store = .ok (summaries, after)) :
    ∃ story items attributes afterStory afterItems,
      env.validateStory bundle = .ok () ∧
      env.judge scope .story none ⟨bundle.id, bundle.base, bundle.proposed⟩ store =
        .ok (story, afterStory) ∧
      inTurn (env.judge scope .newsItem (some ⟨bundle.id, bundle.proposed⟩)) bundle.items
        (afterStory.withdrawDropped .newsItem scope bundle.id (bundle.items.map Bundle.id)) =
        .ok (items, afterItems) ∧
      inTurn (env.judge scope .attr (some ⟨bundle.id, bundle.proposed⟩))
        (Bundle.firsts bundle.attributes)
        (afterItems.withdrawDropped .attr scope bundle.id (bundle.attributes.map Bundle.id)) =
        .ok (attributes, after) ∧
      summaries = (story :: items ++ attributes).filterMap fun summary => summary := by
  unfold judgeStory at judged
  simp only [bind_eq_ok, pure_eq_ok, Prod.exists, Prod.mk.injEq] at judged
  obtain ⟨_, valid, story, afterStory, first, items, afterItems, second, attributes, last, third,
    rfl, rfl⟩ := judged
  exact ⟨story, items, attributes, afterStory, afterItems, valid, first, second, third, rfl⟩

theorem judgeStory_trail {scope : Scope} {bundle : StoryBundle}
    {summaries : List ConflictSummary}
    (judged : env.judgeStory scope bundle store = .ok (summaries, after)) :
    Trail env.registry store after := by
  obtain ⟨_, _, _, afterStory, afterItems, _, story, items, attributes, _⟩ :=
    judgeStory_eq_ok judged
  refine (judge_trail story).trans ?_
  refine (Store.withdrawDropped_trail env afterStory .newsItem scope bundle.id
    (bundle.items.map Bundle.id)).trans ?_
  refine (Trail.of_inTurn (fun _ _ _ _ => judge_trail) items).trans ?_
  refine (Store.withdrawDropped_trail env afterItems .attr scope bundle.id
    (bundle.attributes.map Bundle.id)).trans ?_
  exact .of_inTurn (fun _ _ _ _ => judge_trail) attributes

/-! ## Submissions -/

theorem apply_trail {kind : Kind} {id : EntityId} {proposed : Option Content}
    {attribution : Attribution} {outcome : Outcome}
    (applied : env.apply kind id proposed attribution store = .ok (outcome, after)) :
    Trail env.registry store after :=
  .single rfl (.applied applied)

/-- A story that lost an item was live, and was committed without it. -/
theorem detach_eq_ok {item owner : EntityId} {attribution : Attribution} {outcome : Outcome}
    (detached : env.detach item attribution owner store = .ok (outcome, after)) :
    ∃ story, env.live store .story owner = .ok story ∧
      env.apply .story owner (some (match story.content.relations.get? itemRelation with
        | none => story.content
        | some members => story.content.setMembers itemRelation
            (members.filter fun member => member ≠ item))) attribution store =
        .ok (outcome, after) := by
  unfold detach at detached
  rw [bind_eq_ok] at detached
  exact detached

/-- An item that was applied was committed, and then taken out of the other stories. -/
theorem applyItem_eq_ok {story : EntityId} {attribution : Attribution} {item : Bundle}
    {outcome : Outcome}
    (applied : env.applyItem story attribution item store = .ok (outcome, after)) :
    ∃ next outcomes, env.apply .newsItem item.id (some item.content) attribution store =
        .ok (outcome, next) ∧
      inTurn (env.detach item.id attribution)
        ((next.owners item.id itemRelation).filter fun owner => owner ≠ story) next =
        .ok (outcomes, after) := by
  unfold applyItem at applied
  simp only [bind_eq_ok, pure_eq_ok, Prod.exists, Prod.mk.injEq] at applied
  obtain ⟨_, next, committed, outcomes, last, detached, rfl, rfl⟩ := applied
  exact ⟨next, outcomes, committed, detached⟩

theorem applyItem_trail {story : EntityId} {attribution : Attribution} {item : Bundle}
    {outcome : Outcome}
    (applied : env.applyItem story attribution item store = .ok (outcome, after)) :
    Trail env.registry store after := by
  obtain ⟨_, _, committed, detached⟩ := applyItem_eq_ok applied
  refine (apply_trail committed).trans
    (.of_inTurn (fun owner before outcome next left => ?_) detached)
  obtain ⟨_, _, committed⟩ := detach_eq_ok left
  exact apply_trail committed

/-- The parts of a story that was applied, one after another. -/
theorem applyStory_eq_ok {attribution : Attribution} {bundle : StoryBundle}
    {applied : AppliedStory}
    (done : env.applyStory attribution bundle store = .ok (applied, after)) :
    ∃ afterAttributes afterItems,
      inTurn (fun sent : Bundle => env.apply .attr sent.id (some sent.content) attribution)
        bundle.attributes store = .ok (applied.attributes, afterAttributes) ∧
      inTurn (env.applyItem bundle.id attribution) bundle.items afterAttributes =
        .ok (applied.items, afterItems) ∧
      env.apply .story bundle.id (some bundle.proposed) attribution afterItems =
        .ok (applied.story, after) := by
  unfold applyStory at done
  simp only [bind_eq_ok, pure_eq_ok, Prod.exists, Prod.mk.injEq] at done
  obtain ⟨attributes, afterAttributes, first, items, afterItems, second, story, last, third, rfl,
    rfl⟩ := done
  exact ⟨afterAttributes, afterItems, first, second, third⟩

theorem applyStory_trail {attribution : Attribution} {bundle : StoryBundle}
    {applied : AppliedStory}
    (done : env.applyStory attribution bundle store = .ok (applied, after)) :
    Trail env.registry store after := by
  obtain ⟨_, _, attributes, items, story⟩ := applyStory_eq_ok done
  refine (Trail.of_inTurn (fun _ _ _ _ => apply_trail) attributes).trans ?_
  refine (Trail.of_inTurn (fun _ _ _ _ => applyItem_trail) items).trans ?_
  exact apply_trail story

/-- A submission is judged as a whole, and applied if nothing was found. -/
theorem judgeAndApply_eq_ok {submission : Submission}
    {answer : List ConflictSummary ⊕ List AppliedStory}
    (done : env.judgeAndApply submission store = .ok (answer, after)) :
    ∃ summaries judged, inTurn (env.judgeStory submission.scope) submission.stories store =
        .ok (summaries, judged) ∧
      ((summaries.flatten = [] ∧ ∃ applied, answer = .inr applied ∧
        inTurn (env.applyStory ⟨submission.actor, .external submission.scope⟩) submission.stories
          judged = .ok (applied, after)) ∨
      (summaries.flatten ≠ [] ∧ answer = .inl summaries.flatten ∧ after = judged)) := by
  unfold judgeAndApply at done
  simp only [bind_eq_ok, Prod.exists] at done
  obtain ⟨summaries, judged, first, done⟩ := done
  refine ⟨summaries, judged, first, ?_⟩
  split at done
  · rename_i none
    simp only [bind_eq_ok, pure_eq_ok, Prod.exists, Prod.mk.injEq] at done
    obtain ⟨applied, last, second, rfl, rfl⟩ := done
    exact Or.inl ⟨none, applied, rfl, second⟩
  · rename_i some
    rw [pure_eq_ok] at done
    cases done
    exact Or.inr ⟨some, rfl, rfl⟩

theorem judgeAndApply_trail {submission : Submission}
    {answer : List ConflictSummary ⊕ List AppliedStory}
    (done : env.judgeAndApply submission store = .ok (answer, after)) :
    Trail env.registry store after := by
  obtain ⟨_, judged, first, ⟨_, _, _, second⟩ | ⟨_, _, rfl⟩⟩ := judgeAndApply_eq_ok done
  · have toJudged : Trail env.registry store judged :=
      .of_inTurn (fun _ _ _ _ => judgeStory_trail) first
    exact toJudged.trans (.of_inTurn (fun _ _ _ _ => applyStory_trail) second)
  · exact .of_inTurn (fun _ _ _ _ => judgeStory_trail) first

/-! ## Operations -/

/-- If a step is a trail wherever it is carried out, so is the operation. -/
theorem transact_trail {registry : Registry} {α : Type} {step : Step α}
    (each : ∀ result next, step store = .ok (result, next) → Trail registry store next) :
    Trail registry store (Step.transact step store).2 := by
  obtain ⟨result, done⟩ | same := transact_cases step store
  · exact each result _ done
  · rw [same]
    exact .start

theorem commit_trail (env : Env) (kind : Kind) (id : EntityId) (proposed : Option Content)
    (attribution : Attribution) (store : Store) :
    Trail env.registry store (env.commit kind id proposed attribution store).2 :=
  transact_trail fun _ _ => apply_trail

theorem modify_trail (env : Env) (kind : Kind) (id : EntityId) (attribution : Attribution)
    (edit : Content → Content) (store : Store) :
    Trail env.registry store (env.modify kind id attribution edit store).2 :=
  transact_trail fun result next done => by
    rw [bind_eq_ok] at done
    obtain ⟨_, _, done⟩ := done
    exact apply_trail done

theorem submit_trail (env : Env) (submission : Submission) (store : Store) :
    Trail env.registry store (env.submit submission store).2 := by
  have step : Trail env.registry store (Step.transact (env.judgeAndApply submission) store).2 :=
    transact_trail fun _ _ => judgeAndApply_trail
  unfold submit
  split
  · rename_i carried
    rw [carried] at step
    exact step
  · rename_i carried
    rw [carried] at step
    exact step
  · rename_i carried
    rw [carried] at step
    exact step

theorem resolve_trail (env : Env) (kind : Kind) (id : EntityId) (resolution : Resolution)
    (actor : Actor) (store : Store) :
    Trail env.registry store (env.resolve kind id resolution actor store).2 :=
  transact_trail fun result next done => by
    split at done
    · cases done
    · simp only [bind_eq_ok, pure_eq_ok, Prod.exists, Prod.mk.injEq] at done
      obtain ⟨_, _, _, between, committed, _, _, _, rfl⟩ := done
      exact (apply_trail committed).trans (.single rfl (.withdrawn _))

end Env

/-- Drawing identifiers is a trail. -/
theorem Store.DrawsAhead.trail {store after : Store} (draws : store.DrawsAhead after)
    (registry : Registry) : Trail registry store after := by
  have drawn : Move ⟨registry, 0, 0⟩ store { store with supply := after.supply } :=
    .drawn after.supply draws.advances
  rw [← draws.drawsOnly] at drawn
  exact .single rfl drawn

/-- Every operation is a trail. -/
theorem Operation.perform_trail (env : Env) (store : Store) (operation : Operation) :
    Trail env.registry store (operation.perform env store) := by
  cases operation with
  | commit kind id proposed attribution => exact env.commit_trail kind id proposed attribution store
  | create kind content attribution =>
      have drawn : Trail env.registry store (store.newEntityId env.generator).2 :=
        (Store.DrawsAhead.newEntityId store env.generator).trail env.registry
      exact drawn.trans (env.commit_trail kind _ _ attribution _)
  | modify kind id attribution edit => exact env.modify_trail kind id attribution edit store
  | delete kind id attribution => exact env.commit_trail kind id none attribution store
  | submit submission => exact env.submit_trail submission store
  | resolve kind id resolution actor => exact env.resolve_trail kind id resolution actor store
  | push producer body =>
      change Trail env.registry store (env.push producer body store).2
      unfold Env.push
      split
      · exact .start
      · rename_i submission read taken
        exact ((Env.readPush_drawsAhead taken).trail env.registry).trans
          (env.submit_trail submission read)
  | resolveRequest kind rawId body actor =>
      change Trail env.registry store (env.resolveRequest kind rawId body actor store).2
      unfold Env.resolveRequest
      dsimp only
      split
      · exact .start
      · exact env.resolve_trail kind _ _ actor store

/-- Every run is a trail. -/
theorem Trail.of_run {registry : Registry} {first last : Store} (run : Run registry first last) :
    Trail registry first last := by
  induction run with
  | start => exact .start
  | step run retries now operation ih =>
      exact ih.trans (operation.perform_trail ⟨registry, retries, now⟩ _)

/-- What the empty store has and each move keeps is true of every reachable store. -/
theorem Reachable.keeps {registry : Registry} {motive : Store → Prop} (empty : motive .empty)
    (each : ∀ env before after, env.registry = registry → motive before → Move env before after →
      motive after)
    {store : Store} (reachable : Reachable registry store) : motive store :=
  (Trail.of_run reachable).keeps each empty

/-- Where a list of operations leads from the empty store. -/
def Store.following (env : Env) (operations : List Operation) : Store :=
  operations.foldl (fun store operation => operation.perform env store) .empty

theorem reachable_following (env : Env) (operations : List Operation) :
    Reachable env.registry (.following env operations) := by
  have fold : ∀ store, Reachable env.registry store →
      Reachable env.registry (operations.foldl (fun store operation => operation.perform env store)
        store) := by
    induction operations with
    | nil =>
        intro store reachable
        exact reachable
    | cons first rest ih =>
        intro store reachable
        exact ih _ (reachable.perform rfl first)
  exact fold .empty .start

end Chronicle
