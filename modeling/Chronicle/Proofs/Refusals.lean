import Chronicle.Submission

/-!
# Refusals that tell of no conflicts

A submission is rejected for its conflicts once all of it has been judged and before anything is
applied. No part of what judges a submission, and no commit that applies it, is ever refused with
a list of conflicts.
-/

namespace Chronicle

/-- An answer that is not a rejection for conflicts. -/
structure Unconflicted {α : Type} (answer : Except Refusal α) : Prop where
  ne : ∀ conflicts, answer ≠ .error (.conflicting conflicts)

namespace Unconflicted

variable {α β : Type}

theorem ok (value : α) : Unconflicted (.ok value) := ⟨nofun⟩

theorem bind {answer : Except Refusal α} {next : α → Except Refusal β}
    (first : Unconflicted answer) (rest : ∀ value, Unconflicted (next value)) :
    Unconflicted (answer >>= next) := by
  cases answer with
  | error refusal =>
      constructor
      intro conflicts refused
      have same : refusal = .conflicting conflicts := Except.error.inj refused
      exact first.ne conflicts (congrArg Except.error same)
  | ok value => exact rest value

theorem ofStore (answer : Except StoreError α) : Unconflicted (Refusal.ofStore answer) := by
  cases answer <;> exact ⟨nofun⟩

theorem ofData (answer : Except DataError α) : Unconflicted (Refusal.ofData answer) := by
  cases answer <;> exact ⟨nofun⟩

theorem eachTest {test : α → Except Refusal Unit} (each : ∀ item, Unconflicted (test item))
    (items : List α) : Unconflicted (items.forM test) := by
  induction items with
  | nil => exact ok ()
  | cons first rest ih => exact (each first).bind fun _ => ih

theorem eachInTurn {step : α → Step β} (each : ∀ item store, Unconflicted (step item store))
    (items : List α) (store : Store) : Unconflicted (inTurn step items store) := by
  induction items generalizing store with
  | nil => exact ok _
  | cons first rest ih =>
      exact (each first store).bind fun _ => (ih _).bind fun _ => ok _

end Unconflicted

/-- A member of the wrong kind is the only fault that is found. -/
theorem Store.memberFault?_eq_some {store : Store} {descriptor : Descriptor} {content : Content}
    {refusal : Refusal} (fault : store.memberFault? descriptor content = some refusal) :
    ∃ owner relation target member actual,
      refusal = .memberKind owner relation target member actual := by
  obtain ⟨spec, _, found⟩ := List.exists_of_findSome?_eq_some fault
  obtain ⟨member, _, wrong⟩ := List.exists_of_findSome?_eq_some found
  split at wrong
  · cases wrong
  · split at wrong
    · cases wrong
    · cases wrong
      exact ⟨_, _, _, _, _, rfl⟩

theorem Store.checkProposed_unconflicted (store : Store) (descriptor : Descriptor)
    (proposed : Option Content) : Unconflicted (store.checkProposed descriptor proposed) := by
  cases proposed with
  | none => exact .ok ()
  | some content =>
      refine Unconflicted.bind ?_ ?_
      · cases descriptor.check content <;> exact ⟨nofun⟩
      · intro _
        cases fault : store.memberFault? descriptor content with
        | none => exact .ok ()
        | some refusal =>
            obtain ⟨_, _, _, _, _, rfl⟩ := Store.memberFault?_eq_some fault
            exact ⟨nofun⟩

namespace Env

open Unconflicted

variable (env : Env)

theorem descriptor_unconflicted (kind : Kind) : Unconflicted (env.descriptor kind) :=
  ofData _

theorem clock_unconflicted : Unconflicted env.clock := by
  unfold Env.clock
  split <;> exact ⟨nofun⟩

theorem writeVersion_unconflicted (descriptor : Descriptor) (id : EntityId) (content : Content)
    (change : Change) (attribution : Attribution) (version : Nat) (store : Store) :
    Unconflicted (env.writeVersion descriptor id content change attribution version store) := by
  have link (now : Int64) (event : LinkEvent) (store : Store) :
      Unconflicted (env.writeLink id version attribution.actor now event store) := by
    unfold writeLink
    split
    · exact ok _
    · exact (ofStore _).bind fun _ => (ofStore _).bind fun _ => ok _
  refine env.clock_unconflicted.bind fun now => (ofStore _).bind fun _ => (ofStore _).bind fun _ => ?_
  exact (eachInTurn (link now) _ _).bind fun _ => ok _

theorem writeNext_unconflicted (descriptor : Descriptor) (id : EntityId) (content : Content)
    (change : Change) (attribution : Attribution) (counter : Nat) (store : Store)
    (attempts version : Nat) :
    Unconflicted (env.writeNext descriptor id content change attribution counter store attempts
      version) := by
  induction attempts generalizing version with
  | zero => exact ⟨nofun⟩
  | succ attempts ih =>
      rw [writeNext]
      split
      · exact ih _
      · exact env.writeVersion_unconflicted descriptor id content change attribution version store

theorem apply_unconflicted (kind : Kind) (id : EntityId) (proposed : Option Content)
    (attribution : Attribution) (store : Store) :
    Unconflicted (env.apply kind id proposed attribution store) := by
  unfold apply
  refine (env.descriptor_unconflicted kind).bind fun descriptor =>
    (store.checkProposed_unconflicted descriptor proposed).bind fun _ => Unconflicted.bind ?_ ?_
  · unfold Store.previous
    repeat' split
    all_goals exact ⟨nofun⟩
  · intro before
    dsimp only
    split
    · exact ⟨nofun⟩
    · split
      · exact env.writeNext_unconflicted ..
      · exact ok _

theorem record?_unconflicted (store : Store) (id : EntityId) :
    Unconflicted (env.record? store id) := by
  unfold record?
  split
  · exact ⟨nofun⟩
  · split
    · exact ⟨nofun⟩
    · exact (env.descriptor_unconflicted _).bind fun _ => ok _

theorem live_unconflicted (store : Store) (kind : Kind) (id : EntityId) :
    Unconflicted (env.live store kind id) := by
  unfold live
  split
  · exact ⟨nofun⟩
  · split
    · exact ⟨nofun⟩
    · split
      · exact ⟨nofun⟩
      · refine (env.record?_unconflicted store id).bind fun found => ?_
        cases found <;> exact ⟨nofun⟩

theorem stale?_unconflicted (store : Store) (kind : Kind) (sent : Bundle) :
    Unconflicted (env.stale? store kind sent) := by
  refine (env.record?_unconflicted store sent.id).bind fun found => ?_
  cases found with
  | none => exact ok _
  | some record =>
      dsimp only
      split
      · exact ⟨nofun⟩
      · split
        · exact ok _
        · exact (env.descriptor_unconflicted _).bind fun _ => ok _

theorem noticeConflict_unconflicted (record : Record) (scope : Scope) (base : Option Nat)
    (incoming : Content) (parent : Option Parent) (store : Store) :
    Unconflicted (env.noticeConflict record scope base incoming parent store) := by
  refine (env.descriptor_unconflicted _).bind fun descriptor =>
    env.clock_unconflicted.bind fun now => ?_
  split
  · split
    · exact ok _
    · exact (ofStore _).bind fun _ => ok _
  · exact (ofStore _).bind fun _ => ok _

/-- What judges a story is never refused for conflicts. -/
theorem judgeStory_unconflicted (scope : Scope) (bundle : StoryBundle) (store : Store) :
    Unconflicted (env.judgeStory scope bundle store) := by
  have validate (kind : Kind) (content : Content) : Unconflicted (env.validate kind content) := by
    refine (env.descriptor_unconflicted kind).bind fun descriptor => ?_
    cases descriptor.check content <;> exact ⟨nofun⟩
  have valid : Unconflicted (env.validateStory bundle) := by
    refine (validate _ _).bind fun _ => Unconflicted.bind ?_ fun _ => ?_
    · exact eachTest (fun sent => validate .newsItem sent.content) bundle.items
    · exact eachTest (fun sent => validate .attr sent.content) bundle.attributes
  have judge (kind : Kind) (parent : Option Parent) (sent : Bundle) (store : Store) :
      Unconflicted (env.judge scope kind parent sent store) := by
    refine (env.stale?_unconflicted store kind sent).bind fun outdated => ?_
    cases outdated with
    | none => exact ok _
    | some record => exact (env.noticeConflict_unconflicted ..).bind fun _ => ok _
  refine valid.bind fun _ => (judge ..).bind fun _ => ?_
  refine (eachInTurn (judge _ _) _ _).bind fun _ => ?_
  exact (eachInTurn (judge _ _) _ _).bind fun _ => ok _

/-- What applies a story is never refused for conflicts. -/
theorem applyStory_unconflicted (attribution : Attribution) (bundle : StoryBundle)
    (store : Store) : Unconflicted (env.applyStory attribution bundle store) := by
  have item (sent : Bundle) (store : Store) :
      Unconflicted (env.applyItem bundle.id attribution sent store) := by
    refine (env.apply_unconflicted ..).bind fun applied => ?_
    refine (eachInTurn (fun owner store => ?_) _ _).bind fun _ => ok _
    exact (env.live_unconflicted ..).bind fun _ => env.apply_unconflicted ..
  refine (eachInTurn (fun sent store => env.apply_unconflicted ..) _ _).bind fun _ => ?_
  refine (eachInTurn item _ _).bind fun _ => ?_
  exact (env.apply_unconflicted ..).bind fun _ => ok _

theorem judgeAndApply_unconflicted (submission : Submission) (store : Store) :
    Unconflicted (env.judgeAndApply submission store) := by
  refine (eachInTurn (env.judgeStory_unconflicted submission.scope) _ _).bind fun judged => ?_
  dsimp only
  split
  · refine (eachInTurn ?_ _ _).bind fun _ => ok _
    exact env.applyStory_unconflicted ⟨submission.actor, .external submission.scope⟩
  · exact ok _

end Env

end Chronicle
