import Chronicle.Uuid

/-!
# New identifiers

Records and conflicts that are new get identifiers from a generator. Nothing is relied on but
that these are new (`Generator.fresh`); which ones come up is left to the generator, and what is
proved holds for any. Programs run with one that counts (`Generator.counting`).
-/

namespace Chronicle

/-- Makes identifiers. It is told which ones it has made, the latest first, and which ones are
in use. -/
class Generator where
  next : (issued used : List Uuid) → Uuid
  /-- What is made is neither in use nor among the latest ones, for however many of these an
  identifier is left that is neither. For all of them this says that none is made twice; for none of
  them, that what is in use is passed over even when all have been made once. -/
  fresh : ∀ recent older used : List Uuid, (∃ id, id ∉ used ++ recent) →
    next (recent ++ older) used ∉ used ++ recent

/-! ## Counting -/

namespace Uuid

/-- The identifier with a number. After the greatest one it begins with 0 again. -/
def ofNat (number : Nat) : Uuid := ⟨BitVec.ofNat 128 number⟩

theorem ofNat_toNat (id : Uuid) : ofNat id.bits.toNat = id := by
  rw [ofNat, BitVec.ofNat_toNat, BitVec.setWidth_eq]

theorem ofNat_eq_iff {first second : Nat} :
    ofNat first = ofNat second ↔ first % 2 ^ 128 = second % 2 ^ 128 := by
  rw [ofNat, ofNat, mk.injEq, ← BitVec.toNat_inj, BitVec.toNat_ofNat, BitVec.toNat_ofNat]

/-- The first identifier from a number on that is not to be avoided, if it comes up in so many
tries. -/
def seek? (avoided : List Uuid) : (tries number : Nat) → Option Uuid
  | 0, _ => none
  | tries + 1, number =>
      if ofNat number ∈ avoided then seek? avoided tries (number + 1) else some (ofNat number)

theorem not_mem_of_seek? {avoided : List Uuid} {tries number : Nat} {id : Uuid}
    (found : seek? avoided tries number = some id) : id ∉ avoided := by
  induction tries generalizing number with
  | zero => cases found
  | succ tries ih =>
      rw [seek?] at found
      split at found
      · exact ih found
      · rename_i unused
        cases found
        exact unused

theorem mem_of_seek?_eq_none {avoided : List Uuid} {tries number : Nat}
    (missing : seek? avoided tries number = none) :
    ∀ passed < tries, ofNat (number + passed) ∈ avoided := by
  induction tries generalizing number with
  | zero => nofun
  | succ tries ih =>
      rw [seek?] at missing
      split at missing
      · rename_i used
        intro passed inTries
        cases passed with
        | zero => exact used
        | succ passed =>
            rw [← Nat.add_assoc, Nat.add_right_comm]
            exact ih missing passed (by omega)
      · cases missing

/-- A list in which so many identifiers follow each other is at least that long. -/
theorem le_length_of_covered {count : Nat} (bound : count ≤ 2 ^ 128) {number : Nat}
    {list : List Uuid} (covered : ∀ passed < count, ofNat (number + passed) ∈ list) :
    count ≤ list.length := by
  induction count generalizing number list with
  | zero => exact Nat.zero_le _
  | succ count ih =>
      have first : ofNat number ∈ list := covered 0 (by omega)
      have others : ∀ passed < count, ofNat (number + 1 + passed) ∈ list.erase (ofNat number) := by
        intro passed inCount
        have different : ofNat (number + 1 + passed) ≠ ofNat number := by
          rw [ne_eq, ofNat_eq_iff]
          omega
        rw [List.mem_erase_of_ne different, Nat.add_assoc, Nat.add_comm 1]
        exact covered (passed + 1) (by omega)
      have shorter := ih (by omega) others
      rw [List.length_erase_of_mem first] at shorter
      have positive := List.length_pos_of_mem first
      omega

/-- With fewer identifiers in a list than there are, some identifier is not in it. -/
theorem exists_not_mem {list : List Uuid} (spare : list.length < 2 ^ 128) : ∃ id, id ∉ list := by
  cases found : seek? list (2 ^ 128) 0 with
  | some id => exact ⟨id, not_mem_of_seek? found⟩
  | none =>
      have count := le_length_of_covered (Nat.le_refl _) (mem_of_seek?_eq_none found)
      omega

/-- What is not to be avoided comes up, if there is anything. -/
theorem exists_seek? {avoided : List Uuid} (left : ∃ id, id ∉ avoided) (number : Nat) :
    ∃ id, seek? avoided (avoided.length + 1) number = some id := by
  refine Option.ne_none_iff_exists'.mp fun missing => ?_
  have all := mem_of_seek?_eq_none missing
  by_cases few : avoided.length < 2 ^ 128
  · have count := le_length_of_covered few all
    omega
  · -- so many tries come upon every identifier there is
    obtain ⟨id, unused⟩ := left
    have bound := id.bits.isLt
    have again :
        ofNat (number + (id.bits.toNat + (2 ^ 128 - number % 2 ^ 128)) % 2 ^ 128) = id := by
      refine Eq.trans ?_ id.ofNat_toNat
      rw [ofNat_eq_iff]
      omega
    exact unused (again ▸ all _ (by omega))

/-- The number with which counting goes on. The first identifier begins with the byte `01`. -/
def following : List Uuid → Nat
  | [] => 2 ^ 120
  | latest :: _ => latest.bits.toNat + 1

/-- The next identifier that is neither in use nor one of the `recent` latest ones; if there is
none, the next one that avoids fewer of the latest ones. -/
def count (issued used : List Uuid) : (recent : Nat) → Uuid
  | 0 => (seek? used (used.length + 1) (following issued)).getD default
  | recent + 1 =>
      let avoided := used ++ issued.take (recent + 1)
      match seek? avoided (avoided.length + 1) (following issued) with
      | some id => id
      | none => count issued used recent

theorem count_not_mem (issued used : List Uuid) {fewer recent : Nat} (isFewer : fewer ≤ recent)
    (left : ∃ id, id ∉ used ++ issued.take fewer) :
    count issued used recent ∉ used ++ issued.take fewer := by
  induction recent with
  | zero =>
      cases Nat.le_zero.mp isFewer
      rw [List.take_zero, List.append_nil] at left ⊢
      obtain ⟨id, found⟩ := exists_seek? left (following issued)
      rw [count, found]
      exact not_mem_of_seek? found
  | succ recent ih =>
      rw [count]
      split
      · rename_i id found
        intro listed
        refine not_mem_of_seek? found ?_
        rcases List.mem_append.mp listed with inUse | isRecent
        · exact List.mem_append_left _ inUse
        · exact List.mem_append_right _ (List.take_subset_take_left issued isFewer isRecent)
      · rename_i missing
        by_cases same : fewer = recent + 1
        · subst same
          obtain ⟨id, found⟩ := exists_seek? left (following issued)
          rw [missing] at found
          cases found
        · exact ih (by omega)

end Uuid

/-- The generator that counts. Each identifier is greater than those before it, so they sort in the
sequence in which they were made. -/
instance Generator.counting : Generator where
  next issued used := Uuid.count issued used issued.length
  fresh recent older used left := by
    have isFewer : recent.length ≤ (recent ++ older).length := by
      rw [List.length_append]
      exact Nat.le_add_right _ _
    have avoided := Uuid.count_not_mem (recent ++ older) used isFewer
    rw [List.take_left] at avoided
    exact avoided left

/-! ## Supply -/

/-- The identifiers that have been handed out, the latest first. -/
structure Supply where
  issued : List Uuid
  deriving DecidableEq, Inhabited

namespace Supply

/-- Nothing handed out yet. -/
def fresh : Supply := ⟨[]⟩

/-- Hands out what a generator makes next. -/
def draw (supply : Supply) (generator : Generator) (used : List Uuid) : Uuid × Supply :=
  let id := generator.next supply.issued used
  (id, ⟨id :: supply.issued⟩)

end Supply

end Chronicle
