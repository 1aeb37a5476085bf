import Chronicle.Key

/-!
# Dictionaries

A dictionary lists its entries in strictly ascending order of their keys, so
each key occurs once and two dictionaries with the same look-ups are the same
value (`Dict.ext_get?`). Tables of the store, the fields of a record and its
lists of members are all dictionaries.
-/

namespace Chronicle

universe u v w

/-- Entries in strictly ascending order of their keys. -/
structure Dict (κ : Type u) (ν : Type v) [Key κ] where
  entries : List (κ × ν)
  sorted : entries.Pairwise fun first second => Key.before first.1 second.1 = true
  deriving DecidableEq

namespace Dict

variable {κ : Type u} {ν : Type v} {μ : Type w} [Key κ]

/-! ## Entry lists -/

/-- The value under `key` in an ascending list of entries. -/
def lookup (key : κ) : List (κ × ν) → Option ν
  | [] => none
  | (other, value) :: rest =>
      if Key.before key other then none
      else if Key.before other key then lookup key rest
      else some value

/-- Places `value` under `key`, instead of what was there. -/
def put (key : κ) (value : ν) : List (κ × ν) → List (κ × ν)
  | [] => [(key, value)]
  | (other, old) :: rest =>
      if Key.before key other then (key, value) :: (other, old) :: rest
      else if Key.before other key then (other, old) :: put key value rest
      else (key, value) :: rest

theorem mem_put {key : κ} {value : ν} {entry : κ × ν} {list : List (κ × ν)}
    (found : entry ∈ put key value list) : entry = (key, value) ∨ entry ∈ list := by
  induction list with
  | nil => exact Or.inl (List.mem_singleton.mp found)
  | cons first rest ih =>
      obtain ⟨other, old⟩ := first
      unfold put at found
      split at found
      · exact (List.mem_cons.mp found)
      · split at found
        · rcases List.mem_cons.mp found with same | found
          · exact Or.inr (List.mem_cons.mpr (Or.inl same))
          · exact (ih found).imp id (List.mem_cons_of_mem _)
        · exact (List.mem_cons.mp found).imp id (List.mem_cons_of_mem _)

theorem put_sorted (key : κ) (value : ν) {list : List (κ × ν)}
    (sorted : list.Pairwise fun first second => Key.before first.1 second.1 = true) :
    (put key value list).Pairwise fun first second => Key.before first.1 second.1 = true := by
  induction list with
  | nil => exact List.pairwise_singleton _ _
  | cons first rest ih =>
      obtain ⟨other, old⟩ := first
      obtain ⟨above, restSorted⟩ := List.pairwise_cons.mp sorted
      unfold put
      split
      · rename_i before
        refine List.pairwise_cons.mpr ⟨fun entry found => ?_, sorted⟩
        rcases List.mem_cons.mp found with rfl | found
        · exact before
        · exact Key.trans _ _ _ before (above entry found)
      · rename_i notBefore
        split
        · rename_i after
          refine List.pairwise_cons.mpr ⟨fun entry found => ?_, ih restSorted⟩
          rcases mem_put found with rfl | found
          · exact after
          · exact above entry found
        · rename_i notAfter
          have same := Key.tri key other (Bool.eq_false_iff.mpr notBefore)
            (Bool.eq_false_iff.mpr notAfter)
          exact List.pairwise_cons.mpr ⟨fun entry found => same ▸ above entry found, restSorted⟩

/-! ## Operations -/

/-- No entries. -/
def empty : Dict κ ν := ⟨[], List.Pairwise.nil⟩

instance : EmptyCollection (Dict κ ν) := ⟨empty⟩

instance : Inhabited (Dict κ ν) := ⟨empty⟩

/-- The value under `key`. -/
def get? (dict : Dict κ ν) (key : κ) : Option ν := lookup key dict.entries

/-- Whether there is a value under `key`. -/
def contains (dict : Dict κ ν) (key : κ) : Bool := (dict.get? key).isSome

/-- Places `value` under `key`, instead of what was there. -/
def insert (dict : Dict κ ν) (key : κ) (value : ν) : Dict κ ν :=
  ⟨put key value dict.entries, put_sorted key value dict.sorted⟩

/-- Keeps the entries that pass `test`. -/
def filter (dict : Dict κ ν) (test : κ → ν → Bool) : Dict κ ν :=
  ⟨dict.entries.filter fun entry => test entry.1 entry.2, dict.sorted.filter _⟩

/-- Removes the entry under `key`, if there is one. -/
def erase (dict : Dict κ ν) (key : κ) : Dict κ ν :=
  dict.filter fun other _ => Key.before other key || Key.before key other

/-- Applies `change` to each value. -/
def map (dict : Dict κ ν) (change : κ → ν → μ) : Dict κ μ :=
  ⟨dict.entries.map fun entry => (entry.1, change entry.1 entry.2),
    List.pairwise_map.mpr dict.sorted⟩

/-- Places the entries of a list one after another: of two with one key the
later stays. -/
def ofList (entries : List (κ × ν)) : Dict κ ν :=
  entries.foldl (fun dict entry => dict.insert entry.1 entry.2) empty

/-- The keys in ascending order. -/
def keys (dict : Dict κ ν) : List κ := dict.entries.map Prod.fst

/-- The values in ascending order of their keys. -/
def values (dict : Dict κ ν) : List ν := dict.entries.map Prod.snd

/-- How many entries there are. -/
def size (dict : Dict κ ν) : Nat := dict.entries.length

end Dict

/-- The members of a list in ascending order, each once. -/
def ascending {κ : Type u} [Key κ] (keys : List κ) : List κ :=
  (Dict.ofList (keys.map fun key => (key, ()))).keys

end Chronicle
