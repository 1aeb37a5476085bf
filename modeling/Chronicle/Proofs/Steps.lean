import Chronicle.Refusal
import Mathlib.Data.List.Forall2

/-!
# Steps that are carried out

What is known of the parts of a step once the whole has been carried out, and what
follows for a list of items that are taken in turn: what each of them keeps is kept
at the end (`inTurn_keeps`), and if each can be carried out then all can
(`inTurn_carried`).
-/

namespace Chronicle

section Answers

variable {ε δ α β : Type}

/-- A bind gives a result only if both of its parts do. -/
theorem bind_eq_ok {answer : Except ε α} {next : α → Except ε β} {result : β} :
    (answer >>= next) = .ok result ↔ ∃ value, answer = .ok value ∧ next value = .ok result := by
  cases answer with
  | error fault =>
      constructor
      · intro carried
        cases carried
      · rintro ⟨value, given, _⟩
        cases given
  | ok value =>
      constructor
      · intro carried
        exact ⟨value, rfl, carried⟩
      · rintro ⟨other, given, carried⟩
        cases given
        exact carried

theorem pure_eq_ok {value result : α} :
    (pure value : Except ε α) = .ok result ↔ value = result := by
  constructor
  · intro carried
    cases carried
    rfl
  · intro same
    rw [same]
    rfl

theorem mapError_eq_ok {answer : Except ε α} {change : ε → δ} {result : α} :
    answer.mapError change = .ok result ↔ answer = .ok result := by
  cases answer <;> simp [Except.mapError]

theorem eq_ok_of_toOption {answer : Except ε α} {result : α}
    (given : answer.toOption = some result) : answer = .ok result := by
  cases answer with
  | error fault => cases given
  | ok value =>
      cases given
      rfl

theorem exists_eq_ok_of_toOption {σ : Type} {answer : Except ε α × σ} {result : α}
    (given : answer.1.toOption = some result) : ∃ after, answer = (.ok result, after) :=
  ⟨answer.2, Prod.ext (eq_ok_of_toOption given) rfl⟩

theorem ofStore_eq_ok {answer : Except StoreError α} {result : α} :
    Refusal.ofStore answer = .ok result ↔ answer = .ok result :=
  mapError_eq_ok

/-- A test of all items passes only if each item passes it. -/
theorem forM_eq_ok {test : α → Except ε Unit} {items : List α} :
    items.forM test = .ok () ↔ ∀ item ∈ items, test item = .ok () := by
  induction items with
  | nil => exact ⟨fun _ _ found => absurd found List.not_mem_nil, fun _ => rfl⟩
  | cons first rest ih =>
      have both : (first :: rest).forM test = .ok () ↔
          test first = .ok () ∧ rest.forM test = .ok () := by
        rw [show (first :: rest).forM test = (test first >>= fun _ => rest.forM test) from rfl,
          bind_eq_ok]
        exact ⟨fun ⟨_, passed, others⟩ => ⟨passed, others⟩, fun ⟨passed, others⟩ => ⟨(), passed, others⟩⟩
      rw [both, ih, List.forall_mem_cons]

/-- The answers of all items are those of each. -/
theorem mapM_eq_ok_iff {answer : α → Except ε β} {items : List α} {results : List β} :
    items.mapM answer = .ok results ↔
      List.Forall₂ (fun item result => answer item = .ok result) items results := by
  induction items generalizing results with
  | nil => rw [List.mapM_nil, pure_eq_ok, List.forall₂_nil_left_iff, eq_comm]
  | cons first rest ih =>
      rw [List.mapM_cons, bind_eq_ok, List.forall₂_cons_left_iff]
      refine exists_congr fun result => ?_
      rw [bind_eq_ok]
      constructor
      · rintro ⟨given, others, read, same⟩
        exact ⟨others, given, ih.mp read, (pure_eq_ok.mp same).symm⟩
      · rintro ⟨others, given, read, same⟩
        exact ⟨given, others, ih.mpr read, pure_eq_ok.mpr same.symm⟩

/-- If each item has an answer, all of them have answers. -/
theorem exists_mapM_eq_ok {answer : α → Except ε β} {items : List α}
    (each : ∀ item ∈ items, ∃ result, answer item = .ok result) :
    ∃ results, items.mapM answer = .ok results := by
  induction items with
  | nil => exact ⟨[], rfl⟩
  | cons first rest ih =>
      obtain ⟨⟨result, given⟩, restEach⟩ := List.forall_mem_cons.mp each
      obtain ⟨results, others⟩ := ih restEach
      refine ⟨result :: results, ?_⟩
      rw [List.mapM_cons, bind_eq_ok]
      exact ⟨result, given, bind_eq_ok.mpr ⟨results, others, rfl⟩⟩

end Answers

/-! ## Items in turn -/

section InTurn

variable {ε σ α β : Type} {step : α → σ → Except ε (β × σ)}

theorem inTurn_nil_eq_ok {state after : σ} {results : List β} :
    inTurn step [] state = .ok (results, after) ↔ results = [] ∧ after = state := by
  constructor
  · intro carried
    cases carried
    exact ⟨rfl, rfl⟩
  · rintro ⟨rfl, rfl⟩
    rfl

theorem inTurn_cons_eq_ok {first : α} {rest : List α} {state after : σ} {results : List β} :
    inTurn step (first :: rest) state = .ok (results, after) ↔
      ∃ result between others, step first state = .ok (result, between) ∧
        inTurn step rest between = .ok (others, after) ∧ results = result :: others := by
  rw [inTurn]
  simp only [bind_eq_ok, Prod.exists, pure_eq_ok, Prod.mk.injEq]
  constructor
  · rintro ⟨result, between, carried, others, last, later, rfl, rfl⟩
    exact ⟨result, between, others, carried, later, rfl⟩
  · rintro ⟨result, between, others, carried, later, rfl⟩
    exact ⟨result, between, carried, others, after, later, rfl, rfl⟩

theorem inTurn_append_eq_ok {earlier later : List α} {state after : σ} {results : List β} :
    inTurn step (earlier ++ later) state = .ok (results, after) ↔
      ∃ between firsts others, inTurn step earlier state = .ok (firsts, between) ∧
        inTurn step later between = .ok (others, after) ∧ results = firsts ++ others := by
  induction earlier generalizing state results with
  | nil =>
      constructor
      · intro carried
        exact ⟨state, [], results, rfl, carried, rfl⟩
      · rintro ⟨between, firsts, others, first, carried, rfl⟩
        obtain ⟨rfl, rfl⟩ := inTurn_nil_eq_ok.mp first
        exact carried
  | cons first rest ih =>
      rw [List.cons_append, inTurn_cons_eq_ok]
      constructor
      · rintro ⟨result, next, more, once, others, rfl⟩
        obtain ⟨between, firsts, lasts, middle, last, rfl⟩ := ih.mp others
        exact ⟨between, result :: firsts, lasts,
          inTurn_cons_eq_ok.mpr ⟨result, next, firsts, once, middle, rfl⟩, last, rfl⟩
      · rintro ⟨between, firsts, lasts, middle, last, rfl⟩
        obtain ⟨result, next, more, once, others, rfl⟩ := inTurn_cons_eq_ok.mp middle
        exact ⟨result, next, more ++ lasts, once, ih.mpr ⟨between, more, lasts, others, last, rfl⟩,
          rfl⟩

/-- What each item keeps, together with what it answers, is kept when all have been carried
out. -/
theorem inTurn_keeps_answered {motive : σ → Prop} {items : List α} {state after : σ}
    {results : List β}
    (each : ∀ item ∈ items, ∀ before result next, motive before →
      step item before = .ok (result, next) → result ∈ results → motive next)
    (kept : motive state) (carried : inTurn step items state = .ok (results, after)) :
    motive after := by
  induction items generalizing state results with
  | nil =>
      obtain ⟨_, rfl⟩ := inTurn_nil_eq_ok.mp carried
      exact kept
  | cons first rest ih =>
      obtain ⟨result, next, others, once, later, rfl⟩ := inTurn_cons_eq_ok.mp carried
      refine ih ?_ (each first List.mem_cons_self state result next kept once List.mem_cons_self)
        later
      intro item found before answer next kept once answered
      exact each item (List.mem_cons_of_mem first found) before answer next kept once
        (List.mem_cons_of_mem result answered)

theorem inTurn_keeps {motive : σ → Prop} {items : List α} {state after : σ} {results : List β}
    (each : ∀ item ∈ items, ∀ before result next, motive before →
      step item before = .ok (result, next) → motive next)
    (kept : motive state) (carried : inTurn step items state = .ok (results, after)) :
    motive after :=
  inTurn_keeps_answered
    (fun item found before result next kept once _ => each item found before result next kept once)
    kept carried

/-- In lists that correspond item by item, each item corresponds to one of the other list. -/
theorem exists_of_forall₂ {Corresponds : α → β → Prop} {items : List α} {results : List β}
    (each : List.Forall₂ Corresponds items results) {item : α} (listed : item ∈ items) :
    ∃ result ∈ results, Corresponds item result := by
  induction each with
  | nil => cases listed
  | @cons first result _ _ corresponds _ ih =>
      rcases List.mem_cons.mp listed with rfl | later
      · exact ⟨result, List.mem_cons_self, corresponds⟩
      · obtain ⟨other, found, same⟩ := ih later
        exact ⟨other, List.mem_cons_of_mem result found, same⟩

/-- What each item answers, as long as all before it have kept something, all of them answer. -/
theorem inTurn_answered (motive : σ → Prop) (Answers : α → β → Prop) {items : List α}
    {state after : σ} {results : List β}
    (each : ∀ item ∈ items, ∀ before result next, motive before →
      step item before = .ok (result, next) → Answers item result ∧ motive next)
    (kept : motive state) (carried : inTurn step items state = .ok (results, after)) :
    List.Forall₂ Answers items results ∧ motive after := by
  induction items generalizing state results with
  | nil =>
      obtain ⟨rfl, rfl⟩ := inTurn_nil_eq_ok.mp carried
      exact ⟨.nil, kept⟩
  | cons first rest ih =>
      obtain ⟨result, next, others, once, later, rfl⟩ := inTurn_cons_eq_ok.mp carried
      obtain ⟨answers, keptNext⟩ := each first List.mem_cons_self state result next kept once
      obtain ⟨allAnswer, keptAfter⟩ :=
        ih (fun item found => each item (List.mem_cons_of_mem first found)) keptNext later
      exact ⟨.cons answers allAnswer, keptAfter⟩

/-- Each item was carried out between those before it and those after it. -/
theorem inTurn_around {items : List α} {state after : σ} {results : List β}
    (carried : inTurn step items state = .ok (results, after)) {item : α} (found : item ∈ items) :
    ∃ earlier later before next firsts result others, items = earlier ++ item :: later ∧
      inTurn step earlier state = .ok (firsts, before) ∧
      step item before = .ok (result, next) ∧
      inTurn step later next = .ok (others, after) ∧ results = firsts ++ result :: others := by
  obtain ⟨earlier, later, rfl⟩ := List.append_of_mem found
  obtain ⟨before, firsts, lasts, head, tail, rfl⟩ := inTurn_append_eq_ok.mp carried
  obtain ⟨result, next, others, once, rest, rfl⟩ := inTurn_cons_eq_ok.mp tail
  exact ⟨earlier, later, before, next, firsts, result, others, rfl, head, once, rest, rfl⟩

/-- Each answer was given between those before it and those after it. -/
theorem inTurn_split {items : List α} {state after : σ} {firsts others : List β} {result : β}
    (carried : inTurn step items state = .ok (firsts ++ result :: others, after)) :
    ∃ earlier item later before next, items = earlier ++ item :: later ∧
      inTurn step earlier state = .ok (firsts, before) ∧
      step item before = .ok (result, next) ∧
      inTurn step later next = .ok (others, after) := by
  induction firsts generalizing items state with
  | nil =>
      cases items with
      | nil => cases (inTurn_nil_eq_ok.mp carried).1
      | cons item later =>
          obtain ⟨_, next, _, once, rest, same⟩ := inTurn_cons_eq_ok.mp carried
          obtain ⟨rfl, rfl⟩ := List.cons.inj same
          exact ⟨[], item, later, state, next, rfl, rfl, once, rest⟩
  | cons first firsts ih =>
      cases items with
      | nil => cases (inTurn_nil_eq_ok.mp carried).1
      | cons head items =>
          obtain ⟨_, between, _, once, rest, same⟩ := inTurn_cons_eq_ok.mp carried
          obtain ⟨rfl, rfl⟩ := List.cons.inj same
          obtain ⟨earlier, item, later, before, next, rfl, start, middle, last⟩ := ih rest
          exact ⟨head :: earlier, item, later, before, next, rfl,
            inTurn_cons_eq_ok.mpr ⟨first, between, firsts, once, start, rfl⟩, middle, last⟩

/-- What one item brings about, and all of them keep, is so when all have been carried out. -/
theorem inTurn_reaches (background motive : σ → Prop) {items : List α} {state after : σ}
    {results : List β} {item : α} (found : item ∈ items)
    (steady : ∀ other ∈ items, ∀ before result next, background before →
      step other before = .ok (result, next) → background next)
    (reach : ∀ before result next, background before → step item before = .ok (result, next) →
      motive next)
    (keep : ∀ other ∈ items, ∀ before result next, background before → motive before →
      step other before = .ok (result, next) → motive next)
    (start : background state) (carried : inTurn step items state = .ok (results, after)) :
    motive after := by
  obtain ⟨earlier, later, before, next, _, result, _, rfl, first, once, last, _⟩ :=
    inTurn_around carried found
  have backgroundBefore : background before :=
    inTurn_keeps (fun other listed => steady other (List.mem_append_left _ listed)) start first
  have backgroundNext := steady item found before result next backgroundBefore once
  have reached := reach before result next backgroundBefore once
  have both : background after ∧ motive after := by
    refine inTurn_keeps (motive := fun state => background state ∧ motive state) ?_
      ⟨backgroundNext, reached⟩ last
    intro other listed before result next both once
    have inItems : other ∈ earlier ++ item :: later :=
      List.mem_append_right _ (List.mem_cons_of_mem _ listed)
    exact ⟨steady other inItems before result next both.1 once,
      keep other inItems before result next both.1 both.2 once⟩
  exact both.2

/-- If each item can be carried out from wherever the earlier ones have led, all can. -/
theorem inTurn_carried (motive : σ → Prop) (Answers : α → β → Prop) {items : List α} {state : σ}
    (each : ∀ item ∈ items, ∀ before, motive before →
      ∃ result next, step item before = .ok (result, next) ∧ Answers item result ∧ motive next)
    (kept : motive state) :
    ∃ results after, inTurn step items state = .ok (results, after) ∧
      List.Forall₂ Answers items results ∧ motive after := by
  induction items generalizing state with
  | nil => exact ⟨[], state, rfl, .nil, kept⟩
  | cons first rest ih =>
      obtain ⟨result, next, once, answers, keptNext⟩ := each first List.mem_cons_self state kept
      obtain ⟨others, after, later, allAnswer, keptAfter⟩ :=
        ih (fun item found => each item (List.mem_cons_of_mem first found)) keptNext
      exact ⟨result :: others, after, inTurn_cons_eq_ok.mpr ⟨result, next, others, once, later, rfl⟩,
        .cons answers allAnswer, keptAfter⟩

/-- If no item changes anything, then all of them in turn do not. -/
theorem inTurn_still {Answers : β → Prop} {items : List α} {state : σ}
    (each : ∀ item ∈ items, ∃ result, step item state = .ok (result, state) ∧ Answers result) :
    ∃ results, inTurn step items state = .ok (results, state) ∧
      ∀ result ∈ results, Answers result := by
  induction items with
  | nil => exact ⟨[], rfl, nofun⟩
  | cons first rest ih =>
      obtain ⟨⟨result, once, answers⟩, restEach⟩ := List.forall_mem_cons.mp each
      obtain ⟨results, later, allAnswer⟩ := ih restEach
      exact ⟨result :: results, inTurn_cons_eq_ok.mpr ⟨result, state, results, once, later, rfl⟩,
        List.forall_mem_cons.mpr ⟨answers, allAnswer⟩⟩

/-- If another step answers the same for each item, and changes nothing where all of them have led,
then so it does for all of them in turn. -/
theorem inTurn_again {other : α → σ → Except ε (β × σ)} {items : List α} {state after last : σ}
    {results : List β} (carried : inTurn step items state = .ok (results, after))
    (again : ∀ earlier item later before next firsts result others,
      items = earlier ++ item :: later → inTurn step earlier state = .ok (firsts, before) →
      step item before = .ok (result, next) → inTurn step later next = .ok (others, after) →
      other item last = .ok (result, last)) :
    inTurn other items last = .ok (results, last) := by
  induction items generalizing state results with
  | nil =>
      obtain ⟨rfl, _⟩ := inTurn_nil_eq_ok.mp carried
      rfl
  | cons first rest ih =>
      obtain ⟨result, between, others, once, rest, rfl⟩ := inTurn_cons_eq_ok.mp carried
      refine inTurn_cons_eq_ok.mpr ⟨result, last, others,
        again [] first _ state between [] result others rfl rfl once rest, ih rest ?_, rfl⟩
      rintro earlier item later before next firsts answer lasts rfl start
      exact again (first :: earlier) item later before next (result :: firsts) answer lasts rfl
        (inTurn_cons_eq_ok.mpr ⟨result, between, firsts, once, start, rfl⟩)

/-- Two steps that agree on all items do the same with them in turn. -/
theorem inTurn_congr {other : α → σ → Except ε (β × σ)} {items : List α} {state : σ}
    (same : ∀ item ∈ items, ∀ before, step item before = other item before) :
    inTurn step items state = inTurn other items state := by
  induction items generalizing state with
  | nil => rfl
  | cons first rest ih =>
      have later : inTurn step rest = inTurn other rest := funext fun next =>
        ih fun item found => same item (List.mem_cons_of_mem first found)
      rw [inTurn, inTurn, same first List.mem_cons_self, later]

theorem inTurn_map {γ : Type} (step : α → σ → Except ε (β × σ)) (change : γ → α) (items : List γ)
    (state : σ) :
    inTurn step (items.map change) state = inTurn (fun item => step (change item)) items state := by
  induction items generalizing state with
  | nil => rfl
  | cons first rest ih =>
      have later : inTurn step (rest.map change) = inTurn (fun item => step (change item)) rest :=
        funext ih
      rw [List.map_cons, inTurn, inTurn, later]

end InTurn

/-! ## Transactions -/

/-- An operation either leads where its step leads, or leaves the store alone. -/
theorem transact_cases {α : Type} (step : Step α) (store : Store) :
    (∃ result, step store = .ok (result, (Step.transact step store).2)) ∨
      (Step.transact step store).2 = store := by
  unfold Step.transact
  cases step store with
  | error refusal => exact Or.inr rfl
  | ok carried => exact Or.inl ⟨carried.1, rfl⟩

theorem transact_eq_ok {α : Type} {step : Step α} {store after : Store} {result : α} :
    Step.transact step store = (.ok result, after) ↔ step store = .ok (result, after) := by
  unfold Step.transact
  cases step store with
  | error refusal => simp
  | ok carried => simp [Prod.ext_iff]

theorem transact_of_error {α : Type} {step : Step α} {store : Store} {refusal : Refusal}
    (refused : step store = .error refusal) :
    Step.transact step store = (.error refusal, store) := by
  rw [Step.transact, refused]

end Chronicle
