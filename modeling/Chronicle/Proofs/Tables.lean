import Chronicle.Dict.Lemmas

/-!
# Tables

How the rows of a store are put together and picked out. A dictionary that is made from a list
holds the last entry of each key (`get?_ofList_eq_some_iff`). Rows that are selected from a table
come in the order of their keys, so one that is added under a later key comes last
(`values_filter_insert_last`).
-/

namespace Chronicle.Dict

universe u v w

variable {κ : Type u} {ν : Type v} [Key κ]

/-! ## Entries one after another -/

theorem get?_foldl_insert_eq_some_iff {entries : List (κ × ν)} {dict : Dict κ ν} {key : κ}
    {value : ν} :
    (entries.foldl (fun dict entry => dict.insert entry.1 entry.2) dict).get? key = some value ↔
      (∃ earlier later, entries = earlier ++ (key, value) :: later ∧
        ∀ entry ∈ later, entry.1 ≠ key) ∨
      ((∀ entry ∈ entries, entry.1 ≠ key) ∧ dict.get? key = some value) := by
  induction entries generalizing dict with
  | nil => simp
  | cons first rest ih =>
      rw [List.foldl_cons, ih]
      constructor
      · rintro (⟨earlier, later, rfl, last⟩ | ⟨absent, found⟩)
        · exact Or.inl ⟨first :: earlier, later, rfl, last⟩
        · by_cases here : key = first.1
          · subst here
            rw [get?_insert_self] at found
            cases found
            exact Or.inl ⟨[], rest, rfl, absent⟩
          · rw [get?_insert_of_ne _ here] at found
            exact Or.inr ⟨List.forall_mem_cons.mpr ⟨Ne.symm here, absent⟩, found⟩
      · rintro (⟨earlier, later, same, last⟩ | ⟨absent, found⟩)
        · cases earlier with
          | nil =>
              obtain ⟨rfl, rfl⟩ := List.cons.inj same
              exact Or.inr ⟨last, get?_insert_self _ _ _⟩
          | cons other others =>
              exact Or.inl ⟨others, later, (List.cons.inj same).2, last⟩
        · obtain ⟨other, restAbsent⟩ := List.forall_mem_cons.mp absent
          exact Or.inr ⟨restAbsent, by rw [get?_insert_of_ne _ (Ne.symm other), found]⟩

/-- Of the entries of a list with one key the last is found. -/
theorem get?_ofList_eq_some_iff {entries : List (κ × ν)} {key : κ} {value : ν} :
    (ofList entries).get? key = some value ↔
      ∃ earlier later, entries = earlier ++ (key, value) :: later ∧
        ∀ entry ∈ later, entry.1 ≠ key := by
  rw [ofList, get?_foldl_insert_eq_some_iff]
  simp

/-- What is found once the entries of one dictionary are placed in another: its own values, and
those of the other under the keys that it does not have. -/
theorem get?_foldl_entries_eq_some_iff {added base : Dict κ ν} {key : κ} {value : ν} :
    (added.entries.foldl (fun dict entry => dict.insert entry.1 entry.2) base).get? key =
        some value ↔
      added.get? key = some value ∨ added.get? key = none ∧ base.get? key = some value := by
  have missing : added.get? key = none ↔ ∀ entry ∈ added.entries, entry.1 ≠ key := by
    simp only [Option.eq_none_iff_forall_ne_some, ne_eq, get?_eq_some_iff]
    constructor
    · rintro absent ⟨_, old⟩ listed rfl
      exact absent old listed
    · rintro absent old listed
      exact absent (key, old) listed rfl
  rw [get?_foldl_insert_eq_some_iff, missing]
  refine or_congr ⟨?_, fun found => ?_⟩ Iff.rfl
  · rintro ⟨earlier, later, same, _⟩
    rw [get?_eq_some_iff, same]
    exact List.mem_append_right earlier List.mem_cons_self
  · obtain ⟨earlier, later, same⟩ := List.append_of_mem (added.get?_eq_some_iff.mp found)
    refine ⟨earlier, later, same, fun entry after repeated => ?_⟩
    have sorted := added.sorted
    rw [same, List.pairwise_append] at sorted
    obtain ⟨above, _⟩ := List.pairwise_cons.mp sorted.2.1
    exact Key.ne_of_before (above entry after) repeated.symm

/-- Where both have a value, the one that was added counts. -/
theorem get?_foldl_entries (added base : Dict κ ν) (key : κ) :
    (added.entries.foldl (fun dict entry => dict.insert entry.1 entry.2) base).get? key =
      (added.get? key).or (base.get? key) := by
  refine Option.ext fun value => ?_
  rw [get?_foldl_entries_eq_some_iff]
  cases added.get? key <;> simp

theorem ofList_entries (dict : Dict κ ν) : ofList dict.entries = dict := by
  refine ext_get? fun key => Option.ext fun value => ?_
  rw [ofList, get?_foldl_entries_eq_some_iff]
  simp

/-- A key that occurs in a list has a value. -/
theorem exists_get?_ofList {entries : List (κ × ν)} {entry : κ × ν} (listed : entry ∈ entries) :
    ∃ value, (ofList entries).get? entry.1 = some value := by
  have fold : ∀ (rest : List (κ × ν)) (dict : Dict κ ν),
      entry ∈ rest ∨ (∃ value, dict.get? entry.1 = some value) →
      ∃ value, (rest.foldl (fun dict entry => dict.insert entry.1 entry.2) dict).get? entry.1 =
        some value := by
    intro rest
    induction rest with
    | nil =>
        rintro dict (impossible | found)
        · cases impossible
        · exact found
    | cons first rest ih =>
        rintro dict (listed | ⟨value, found⟩)
        · rcases List.mem_cons.mp listed with rfl | later
          · exact ih _ (Or.inr ⟨entry.2, get?_insert_self _ _ _⟩)
          · exact ih _ (Or.inl later)
        · refine ih _ (Or.inr ?_)
          by_cases here : entry.1 = first.1
          · exact ⟨first.2, by rw [here, get?_insert_self]⟩
          · exact ⟨value, by rw [get?_insert_of_ne _ here, found]⟩
  exact fold entries empty (Or.inl listed)

/-- With different keys, each entry of a list is found. -/
theorem get?_ofList_of_nodup {entries : List (κ × ν)} (nodup : (entries.map Prod.fst).Nodup)
    {key : κ} {value : ν} : (ofList entries).get? key = some value ↔ (key, value) ∈ entries := by
  rw [get?_ofList_eq_some_iff]
  constructor
  · rintro ⟨earlier, later, rfl, _⟩
    exact List.mem_append_right earlier List.mem_cons_self
  · intro listed
    obtain ⟨earlier, later, rfl⟩ := List.append_of_mem listed
    refine ⟨earlier, later, rfl, ?_⟩
    rw [List.map_append, List.map_cons] at nodup
    obtain ⟨absent, _⟩ := List.nodup_cons.mp (List.nodup_append.mp nodup).2.1
    intro entry listed same
    exact absent (List.mem_map.mpr ⟨entry, listed, same⟩)

/-! ## Values by their keys -/

section Keyed

variable {key : ν → κ} {rows : List ν}

/-- Of the rows with one key the last is found. -/
theorem get?_ofList_map_eq_some_iff {wanted : κ} {row : ν} :
    (ofList (rows.map fun row => (key row, row))).get? wanted = some row ↔
      ∃ earlier later, rows = earlier ++ row :: later ∧ key row = wanted ∧
        ∀ other ∈ later, key other ≠ wanted := by
  rw [get?_ofList_eq_some_iff]
  constructor
  · rintro ⟨earlier, later, same, last⟩
    obtain ⟨first, rest, rfl, _, tail⟩ := List.map_eq_append_iff.mp same
    obtain ⟨found, others, rfl, entry, rfl⟩ := List.map_eq_cons_iff.mp tail
    cases entry
    refine ⟨first, others, rfl, rfl, ?_⟩
    intro other listed
    exact last _ (List.mem_map.mpr ⟨other, listed, rfl⟩)
  · rintro ⟨earlier, later, rfl, rfl, last⟩
    refine ⟨_, _, List.map_append.trans (congrArg _ (List.map_cons ..)), ?_⟩
    intro entry listed
    obtain ⟨other, otherListed, rfl⟩ := List.mem_map.mp listed
    exact last other otherListed

/-- Rows with different keys are all there after they have been sorted. -/
theorem mem_values_ofList_map
    (injective : ∀ first ∈ rows, ∀ second ∈ rows, key first = key second → first = second) {row : ν} :
    row ∈ (ofList (rows.map fun row => (key row, row))).values ↔ row ∈ rows := by
  rw [mem_values_iff]
  constructor
  · rintro ⟨wanted, found⟩
    obtain ⟨earlier, later, rfl, _⟩ := get?_ofList_map_eq_some_iff.mp found
    exact List.mem_append_right earlier List.mem_cons_self
  · intro listed
    obtain ⟨other, found⟩ := exists_get?_ofList
      (List.mem_map.mpr ⟨row, listed, rfl⟩ : (key row, row) ∈ rows.map fun row => (key row, row))
    obtain ⟨earlier, later, split, same, _⟩ := get?_ofList_map_eq_some_iff.mp found
    have otherListed : other ∈ rows := by
      rw [split]
      exact List.mem_append_right earlier List.mem_cons_self
    rw [injective other otherListed row listed same] at found
    exact ⟨key row, found⟩

/-- Sorted rows come in the order of their keys. -/
theorem values_ofList_map_sorted :
    (ofList (rows.map fun row => (key row, row))).values.Pairwise fun first second =>
      Key.before (key first) (key second) = true := by
  have keyed (entry : κ × ν) (listed : entry ∈ (ofList (rows.map fun row => (key row, row))).entries) :
      entry.1 = key entry.2 := by
    obtain ⟨_, _, _, same, _⟩ :=
      get?_ofList_map_eq_some_iff.mp ((get?_eq_some_iff _).mpr listed)
    exact same.symm
  rw [values, List.pairwise_map]
  refine List.Pairwise.imp_of_mem ?_ (sorted _)
  intro first second firstListed secondListed before
  rwa [← keyed first firstListed, ← keyed second secondListed]

/-- Of sorted rows with one key the one that comes last in the order is found. -/
theorem get?_ofList_map_of_sorted {τ : Type w} [Key τ] {turn : ν → τ}
    (sorted : rows.Pairwise fun first second => Key.before (turn first) (turn second) = true)
    {wanted : κ} {row : ν} :
    (ofList (rows.map fun row => (key row, row))).get? wanted = some row ↔
      row ∈ rows ∧ key row = wanted ∧ ∀ other ∈ rows, key other = wanted →
        other = row ∨ Key.before (turn other) (turn row) = true := by
  rw [get?_ofList_map_eq_some_iff]
  constructor
  · rintro ⟨earlier, later, rfl, same, last⟩
    obtain ⟨_, _, across⟩ := List.pairwise_append.mp sorted
    refine ⟨List.mem_append_right _ List.mem_cons_self, same, fun other listed otherSame => ?_⟩
    rcases List.mem_append.mp listed with early | here
    · exact Or.inr (across other early row List.mem_cons_self)
    · rcases List.mem_cons.mp here with rfl | late
      · exact Or.inl rfl
      · exact absurd otherSame (last other late)
  · rintro ⟨listed, same, last⟩
    obtain ⟨earlier, later, rfl⟩ := List.append_of_mem listed
    refine ⟨earlier, later, rfl, same, fun other late otherSame => ?_⟩
    have before : Key.before (turn row) (turn other) = true :=
      (List.pairwise_cons.mp (List.pairwise_append.mp sorted).2.1).1 other late
    rcases last other (List.mem_append_right _ (List.mem_cons_of_mem _ late)) otherSame with
      rfl | after
    · rw [Key.irrefl] at before
      cases before
    · rw [Key.asymm before] at after
      cases after

end Keyed

/-! ## Selected rows -/

/-- Two tests that agree on all rows select the same. -/
theorem filter_congr {dict : Dict κ ν} {first second : κ → ν → Bool}
    (same : ∀ key value, dict.get? key = some value → first key value = second key value) :
    dict.filter first = dict.filter second := by
  refine ext_get? fun key => ?_
  rw [get?_filter, get?_filter]
  cases found : dict.get? key with
  | none => rfl
  | some value => rw [Option.filter, Option.filter, same key value found]

/-- A test that all rows pass selects all of them. -/
theorem filter_eq_self {dict : Dict κ ν} {test : κ → ν → Bool}
    (all : ∀ key value, dict.get? key = some value → test key value = true) :
    dict.filter test = dict := by
  refine ext_get? fun key => ?_
  rw [get?_filter]
  cases found : dict.get? key with
  | none => rfl
  | some value => rw [Option.filter, if_pos (all key value found)]

theorem mem_entries_filter_iff {dict : Dict κ ν} {test : κ → ν → Bool} {row : κ × ν} :
    row ∈ (dict.filter test).entries ↔ dict.get? row.1 = some row.2 ∧ test row.1 row.2 = true := by
  rw [← Option.filter_eq_some_iff, ← get?_filter, get?_eq_some_iff]

theorem filter_eq_empty_iff {dict : Dict κ ν} {test : κ → ν → Bool} :
    dict.filter test = ∅ ↔ ∀ row ∈ dict.entries, test row.1 row.2 = false := by
  constructor
  · intro none
    have entries : (dict.filter test).entries = [] := congrArg entries none
    simpa [filter, List.filter_eq_nil_iff] using entries
  · intro unselected
    refine ext_get? fun key => ?_
    rw [get?_filter]
    cases found : dict.get? key with
    | none => rfl
    | some value =>
        rw [Option.filter, unselected (key, value) (dict.get?_eq_some_iff.mp found)]
        rfl

/-- Placing what is there already changes nothing. -/
theorem insert_eq_self {dict : Dict κ ν} {key : κ} {value : ν}
    (found : dict.get? key = some value) : dict.insert key value = dict := by
  refine ext_get? fun other => ?_
  by_cases here : other = key
  · rw [here, get?_insert_self, found]
  · rw [get?_insert_of_ne _ here]

/-- A row that is not selected makes no difference. -/
theorem filter_insert_of_not {dict : Dict κ ν} {test : κ → ν → Bool} {key : κ}
    (unselected : ∀ value, test key value = false) (value : ν) :
    (dict.insert key value).filter test = dict.filter test := by
  refine ext_get? fun other => ?_
  rw [get?_filter, get?_filter]
  by_cases same : other = key
  · subst same
    rw [get?_insert_self]
    cases dict.get? other with
    | none => simp [Option.filter, unselected]
    | some old => simp [Option.filter, unselected]
  · rw [get?_insert_of_ne _ same]

/-- A row that is selected, and has a later key than the others, comes last. -/
theorem values_filter_insert_last {dict : Dict κ ν} {test : κ → ν → Bool} {key : κ} {value : ν}
    (selected : test key value = true)
    (last : ∀ other found, dict.get? other = some found → test other found = true →
      Key.before other key = true) :
    ((dict.insert key value).filter test).values = (dict.filter test).values ++ [value] := by
  have entries : ((dict.insert key value).filter test).entries =
      (dict.filter test).entries ++ [(key, value)] := by
    refine eq_of_sorted (sorted _) ?_ fun entry => ?_
    · refine List.pairwise_append.mpr ⟨sorted _, List.pairwise_singleton _ _, ?_⟩
      intro entry listed added here
      rw [List.mem_singleton.mp here]
      obtain ⟨found, passes⟩ := mem_entries_filter_iff.mp listed
      exact last entry.1 entry.2 found passes
    · rw [List.mem_append, List.mem_singleton, ← get?_eq_some_iff, ← get?_eq_some_iff, get?_filter,
        get?_filter]
      by_cases here : entry.1 = key
      · have notEarlier : (dict.get? entry.1).filter (test entry.1) ≠ some entry.2 := by
          intro earlier
          obtain ⟨found, passes⟩ := Option.filter_eq_some_iff.mp earlier
          have before := last entry.1 entry.2 found passes
          rw [here, Key.irrefl] at before
          cases before
        have added : entry = (key, value) ↔ value = entry.2 :=
          ⟨fun same => by rw [same], fun same => Prod.ext here same.symm⟩
        rw [here, get?_insert_self, Option.filter, if_pos selected, Option.some.injEq, added,
          ← here]
        simp [notEarlier]
      · have notAdded : entry ≠ (key, value) := fun same => here (congrArg Prod.fst same)
        rw [get?_insert_of_ne _ here]
        simp [notAdded]
  rw [values, values, entries, List.map_append]
  rfl

end Chronicle.Dict
