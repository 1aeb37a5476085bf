import Chronicle.Dict

/-!
# Look-ups in dictionaries

A dictionary is known by its look-ups: `get?_eq_some_iff` ties them to the entries,
`ext_get?` says that they determine the dictionary, and there is one equation for
each operation.
-/

namespace Chronicle

universe u v w

variable {κ : Type u} {ν : Type v} {μ : Type w} [Key κ]

/-! ## Ascending lists -/

/-- Two strictly ascending lists with the same members are the same. -/
theorem eq_of_ascending {α : Type u} {before : α → α → Prop}
    (asymm : ∀ a b, before a b → ¬ before b a) {first second : List α}
    (firstSorted : first.Pairwise before) (secondSorted : second.Pairwise before)
    (same : ∀ a, a ∈ first ↔ a ∈ second) : first = second := by
  induction first generalizing second with
  | nil =>
      cases second with
      | nil => rfl
      | cons b tail => exact absurd ((same b).mpr (List.mem_cons_self)) List.not_mem_nil
  | cons a rest ih =>
      cases second with
      | nil => exact absurd ((same a).mp List.mem_cons_self) List.not_mem_nil
      | cons b tail =>
          obtain ⟨aboveA, restSorted⟩ := List.pairwise_cons.mp firstSorted
          obtain ⟨aboveB, tailSorted⟩ := List.pairwise_cons.mp secondSorted
          have heads : a = b := by
            rcases List.mem_cons.mp ((same a).mp List.mem_cons_self) with heads | inTail
            · exact heads
            · rcases List.mem_cons.mp ((same b).mpr List.mem_cons_self) with heads | inRest
              · exact heads.symm
              · exact absurd (aboveA b inRest) (asymm b a (aboveB a inTail))
          subst heads
          have notSelf : ¬ before a a := fun self => asymm a a self self
          refine congrArg (a :: ·) (ih restSorted tailSorted fun c => ?_)
          constructor
          · intro inRest
            rcases List.mem_cons.mp ((same c).mp (List.mem_cons_of_mem a inRest)) with rfl | inTail
            · exact absurd (aboveA c inRest) notSelf
            · exact inTail
          · intro inTail
            rcases List.mem_cons.mp ((same c).mpr (List.mem_cons_of_mem a inTail)) with rfl | inRest
            · exact absurd (aboveB c inTail) notSelf
            · exact inRest

/-- So are two lists that are sorted by a key. -/
theorem eq_of_sorted {α : Type v} {key : α → κ} {first second : List α}
    (firstSorted : first.Pairwise fun a b => Key.before (key a) (key b) = true)
    (secondSorted : second.Pairwise fun a b => Key.before (key a) (key b) = true)
    (same : ∀ a, a ∈ first ↔ a ∈ second) : first = second := by
  refine eq_of_ascending (fun a b before after => ?_) firstSorted secondSorted same
  rw [Key.asymm before] at after
  cases after

namespace Dict

/-! ## Entries -/

theorem lookup_eq_some_iff {list : List (κ × ν)}
    (sorted : list.Pairwise fun first second => Key.before first.1 second.1 = true)
    {key : κ} {value : ν} : lookup key list = some value ↔ (key, value) ∈ list := by
  induction list with
  | nil => simp [lookup]
  | cons first rest ih =>
      obtain ⟨other, old⟩ := first
      obtain ⟨above, restSorted⟩ := List.pairwise_cons.mp sorted
      rw [List.mem_cons, ← ih restSorted]
      rcases Key.cases_on key other with before | rfl | after
      · have notRest : lookup key rest ≠ some value := fun found =>
          absurd (Key.trans _ _ _ before (above _ ((ih restSorted).mp found)))
            (by simp [Key.irrefl])
        have notHead : (key, value) ≠ (other, old) := fun same =>
          Key.ne_of_before before (congrArg Prod.fst same)
        simp [lookup, before, notRest, notHead]
      · have notRest : lookup key rest ≠ some value := fun found =>
          absurd (above _ ((ih restSorted).mp found)) (by simp [Key.irrefl])
        simp [lookup, Key.irrefl, notRest, eq_comm]
      · have notHead : (key, value) ≠ (other, old) := fun same =>
          Key.ne_of_before after (congrArg Prod.fst same).symm
        simp [lookup, after, Key.asymm after, notHead]

/-- The look-up under a key finds exactly the value of its entry. -/
theorem get?_eq_some_iff (dict : Dict κ ν) {key : κ} {value : ν} :
    dict.get? key = some value ↔ (key, value) ∈ dict.entries :=
  lookup_eq_some_iff dict.sorted

/-- Two dictionaries with the same look-ups are the same. -/
theorem ext_get? {first second : Dict κ ν} (same : ∀ key, first.get? key = second.get? key) :
    first = second := by
  obtain ⟨firstEntries, firstSorted⟩ := first
  obtain ⟨secondEntries, secondSorted⟩ := second
  have entries : firstEntries = secondEntries := by
    refine eq_of_sorted firstSorted secondSorted fun entry => ?_
    have look : lookup entry.1 firstEntries = lookup entry.1 secondEntries := same entry.1
    rw [show entry = (entry.1, entry.2) from rfl, ← lookup_eq_some_iff firstSorted,
      ← lookup_eq_some_iff secondSorted, look]
  subst entries
  rfl

theorem mem_keys_iff (dict : Dict κ ν) {key : κ} :
    key ∈ dict.keys ↔ ∃ value, dict.get? key = some value := by
  simp only [keys, List.mem_map, get?_eq_some_iff]
  constructor
  · rintro ⟨entry, found, rfl⟩
    exact ⟨entry.2, found⟩
  · rintro ⟨value, found⟩
    exact ⟨(key, value), found, rfl⟩

theorem mem_values_iff (dict : Dict κ ν) {value : ν} :
    value ∈ dict.values ↔ ∃ key, dict.get? key = some value := by
  simp only [values, List.mem_map, get?_eq_some_iff]
  constructor
  · rintro ⟨entry, found, rfl⟩
    exact ⟨entry.1, found⟩
  · rintro ⟨key, found⟩
    exact ⟨(key, value), found, rfl⟩

/-- The keys are in strictly ascending order. -/
theorem keys_sorted (dict : Dict κ ν) :
    dict.keys.Pairwise fun first second => Key.before first second = true :=
  List.pairwise_map.mpr dict.sorted

/-! ## One equation for each operation -/

@[simp] theorem get?_empty (key : κ) : (empty : Dict κ ν).get? key = none := rfl

theorem lookup_put_self (key : κ) (value : ν) (list : List (κ × ν)) :
    lookup key (put key value list) = some value := by
  induction list with
  | nil => simp [put, lookup, Key.irrefl]
  | cons first rest ih =>
      obtain ⟨other, old⟩ := first
      unfold put
      split
      · simp [lookup, Key.irrefl]
      · rename_i notBefore
        split
        · rename_i after
          simp [lookup, notBefore, after, ih]
        · simp [lookup, Key.irrefl]

theorem lookup_put_of_ne {key other : κ} (different : other ≠ key) (value : ν)
    (list : List (κ × ν)) : lookup other (put key value list) = lookup other list := by
  have apart : Key.before other key = true ∨ Key.before key other = true := by
    rcases Key.cases_on other key with before | same | after
    · exact Or.inl before
    · exact absurd same different
    · exact Or.inr after
  induction list with
  | nil => rcases apart with before | after <;> simp [put, lookup, *]
  | cons first rest ih =>
      obtain ⟨third, old⟩ := first
      unfold put
      split
      · rename_i before
        rcases apart with otherBefore | otherAfter
        · simp [lookup, otherBefore, Key.trans _ _ _ otherBefore before]
        · rw [lookup]
          simp [Key.asymm otherAfter, otherAfter]
      · rename_i notBefore
        split
        · simp only [lookup, ih]
        · rename_i notAfter
          have same := Key.tri key third (Bool.eq_false_iff.mpr notBefore)
            (Bool.eq_false_iff.mpr notAfter)
          subst same
          rcases apart with otherBefore | otherAfter
          · simp [lookup, otherBefore]
          · simp [lookup, otherAfter, Key.asymm otherAfter]

@[simp] theorem get?_insert_self (dict : Dict κ ν) (key : κ) (value : ν) :
    (dict.insert key value).get? key = some value :=
  lookup_put_self key value dict.entries

theorem get?_insert_of_ne (dict : Dict κ ν) {key other : κ} (different : other ≠ key)
    (value : ν) : (dict.insert key value).get? other = dict.get? other :=
  lookup_put_of_ne different value dict.entries

theorem get?_filter (dict : Dict κ ν) (test : κ → ν → Bool) (key : κ) :
    (dict.filter test).get? key = (dict.get? key).filter (test key) := by
  apply Option.ext
  intro value
  rw [get?_eq_some_iff, Option.filter_eq_some_iff, get?_eq_some_iff]
  simp [filter]

@[simp] theorem get?_erase_self (dict : Dict κ ν) (key : κ) : (dict.erase key).get? key = none := by
  rw [erase, get?_filter]
  cases dict.get? key with
  | none => rfl
  | some value => simp [Option.filter, Key.irrefl]

theorem get?_erase_of_ne (dict : Dict κ ν) {key other : κ} (different : other ≠ key) :
    (dict.erase key).get? other = dict.get? other := by
  rw [erase, get?_filter]
  cases dict.get? other with
  | none => rfl
  | some value =>
      rcases Key.cases_on other key with before | same | after
      · simp [Option.filter, before]
      · exact absurd same different
      · simp [Option.filter, after]

theorem get?_map (dict : Dict κ ν) (change : κ → ν → μ) (key : κ) :
    (dict.map change).get? key = (dict.get? key).map (change key) := by
  apply Option.ext
  intro value
  rw [get?_eq_some_iff, Option.map_eq_some_iff]
  simp only [map, List.mem_map, Prod.mk.injEq, get?_eq_some_iff]
  constructor
  · rintro ⟨⟨other, old⟩, found, rfl, rfl⟩
    exact ⟨old, found, rfl⟩
  · rintro ⟨old, found, rfl⟩
    exact ⟨(key, old), found, rfl, rfl⟩

end Dict

/-! ## Sorting without repetition -/

theorem get?_foldl_insert_unit (keys : List κ) (dict : Dict κ Unit) (key : κ) :
    ((keys.map fun key => (key, ())).foldl (fun dict entry => dict.insert entry.1 entry.2)
      dict).get? key = some () ↔ key ∈ keys ∨ dict.get? key = some () := by
  induction keys generalizing dict with
  | nil => simp
  | cons first rest ih =>
      rw [List.map_cons, List.foldl_cons, ih, List.mem_cons]
      rcases Key.cases_on key first with before | rfl | after
      · rw [Dict.get?_insert_of_ne _ (Key.ne_of_before before)]
        simp [Key.ne_of_before before]
      · simp
      · rw [Dict.get?_insert_of_ne _ (Key.ne_of_before after).symm]
        simp [(Key.ne_of_before after).symm]

@[simp] theorem mem_ascending {keys : List κ} {key : κ} : key ∈ ascending keys ↔ key ∈ keys := by
  rw [ascending, Dict.mem_keys_iff]
  have found := get?_foldl_insert_unit keys Dict.empty key
  simp only [Dict.get?_empty, reduceCtorEq, or_false] at found
  exact ⟨fun ⟨_, look⟩ => found.mp look, fun inKeys => ⟨(), found.mpr inKeys⟩⟩

/-- The members come in strictly ascending order. -/
theorem ascending_sorted (keys : List κ) :
    (ascending keys).Pairwise fun first second => Key.before first second = true :=
  Dict.keys_sorted _

/-- Two lists are the same after sorting exactly if they have the same members. -/
theorem ascending_eq_iff {first second : List κ} :
    ascending first = ascending second ↔ ∀ key, key ∈ first ↔ key ∈ second := by
  constructor
  · intro same key
    have inFirst : key ∈ ascending first ↔ key ∈ first := mem_ascending
    rw [← inFirst, same, mem_ascending]
  · intro same
    exact eq_of_sorted (ascending_sorted first) (ascending_sorted second) fun key => by
      rw [mem_ascending, mem_ascending, same]

end Chronicle
