import Chronicle.Number.Power

/-!
# Keys

A key type comes with one test, `Key.before`, that is a strict total order.
The order decides in which sequence the entries of a table are listed, so it
is part of every answer that lists records, members or names.

Names order by their code points, identifiers as numbers, and pairs by the
first component that differs.
-/

namespace Chronicle

universe u v

/-- A type whose values are told apart and put in sequence by one test. -/
class Key (κ : Type u) where
  before : κ → κ → Bool
  irrefl : ∀ a, before a a = false
  trans : ∀ a b c, before a b = true → before b c = true → before a c = true
  tri : ∀ a b, before a b = false → before b a = false → a = b

namespace Key

/-- A key type is ordered by any injective measure in another key type. -/
@[reducible]
def ofInjective {κ : Type u} {μ : Type v} [Key μ] (measure : κ → μ)
    (injective : ∀ a b, measure a = measure b → a = b) : Key κ where
  before a b := before (measure a) (measure b)
  irrefl a := irrefl (measure a)
  trans a b c := trans (measure a) (measure b) (measure c)
  tri a b first second := injective a b (tri (measure a) (measure b) first second)

theorem asymm {κ : Type u} [Key κ] {a b : κ} (first : before a b = true) : before b a = false := by
  cases second : before b a with
  | false => rfl
  | true =>
      have loop := trans a b a first second
      rw [irrefl] at loop
      cases loop

theorem ne_of_before {κ : Type u} [Key κ] {a b : κ} (first : before a b = true) : a ≠ b := by
  intro same
  rw [same, irrefl] at first
  cases first

/-- Of two keys one is before the other, or they are the same. -/
theorem cases_on {κ : Type u} [Key κ] (a b : κ) :
    before a b = true ∨ a = b ∨ before b a = true := by
  cases first : before a b with
  | true => exact Or.inl rfl
  | false =>
      cases second : before b a with
      | true => exact Or.inr (Or.inr rfl)
      | false => exact Or.inr (Or.inl (tri a b first second))

instance : Key Nat where
  before a b := @decide (a < b) (Nat.decLt a b)
  irrefl a := decide_eq_false (Nat.lt_irrefl a)
  trans _ _ _ first second :=
    decide_eq_true (Nat.lt_trans (of_decide_eq_true first) (of_decide_eq_true second))
  tri _ _ first second :=
    Nat.le_antisymm (Nat.le_of_not_lt (of_decide_eq_false second))
      (Nat.le_of_not_lt (of_decide_eq_false first))

instance : Key Int where
  before a b := decide (a < b)
  irrefl a := decide_eq_false (Int.lt_irrefl a)
  trans _ _ _ first second :=
    decide_eq_true (Int.lt_trans (of_decide_eq_true first) (of_decide_eq_true second))
  tri _ _ first second :=
    Int.le_antisymm (Int.not_lt.mp (of_decide_eq_false second))
      (Int.not_lt.mp (of_decide_eq_false first))

instance : Key Char := ofInjective Char.toNat fun _ _ same => Char.toNat_inj.mp same

instance {width : Nat} : Key (BitVec width) :=
  ofInjective BitVec.toNat fun _ _ same => BitVec.eq_of_toNat_eq same

instance : Key Int64 :=
  ofInjective (fun moment => (moment.toInt + 2 ^ 63).toNat) fun a b same => by
    have low := Int64.le_toInt a
    have low' := Int64.le_toInt b
    exact Int64.toInt_inj.mp (by omega)

/-! ## Sequences and pairs -/

/-- The shorter of two sequences comes first if it begins the longer one;
otherwise the first place where they differ decides. -/
def beforeList {κ : Type u} [Key κ] : List κ → List κ → Bool
  | _, [] => false
  | [], _ :: _ => true
  | a :: rest, b :: tail => before a b || (!before b a && beforeList rest tail)

theorem beforeList_irrefl {κ : Type u} [Key κ] (keys : List κ) : beforeList keys keys = false := by
  induction keys with
  | nil => rfl
  | cons a rest ih => simp [beforeList, irrefl, ih]

theorem beforeList_trans {κ : Type u} [Key κ] (first second third : List κ) :
    beforeList first second = true → beforeList second third = true →
      beforeList first third = true := by
  induction first generalizing second third with
  | nil =>
      cases second with
      | nil => simp [beforeList]
      | cons b tail =>
          cases third with
          | nil => simp [beforeList]
          | cons c more => simp [beforeList]
  | cons a rest ih =>
      cases second with
      | nil => simp [beforeList]
      | cons b tail =>
          cases third with
          | nil => simp [beforeList]
          | cons c more =>
              simp only [beforeList, Bool.or_eq_true, Bool.and_eq_true, Bool.not_eq_true']
              rintro (ab | ⟨ba, restTail⟩) (bc | ⟨cb, tailMore⟩)
              · exact Or.inl (trans a b c ab bc)
              · rcases cases_on b c with bc | rfl | cb'
                · exact Or.inl (trans a b c ab bc)
                · exact Or.inl ab
                · rw [cb] at cb'
                  cases cb'
              · rcases cases_on a b with ab | rfl | ba'
                · exact Or.inl (trans a b c ab bc)
                · exact Or.inl bc
                · rw [ba] at ba'
                  cases ba'
              · rcases cases_on a b with ab | rfl | ba'
                · rcases cases_on b c with bc | rfl | cb'
                  · exact Or.inl (trans a b c ab bc)
                  · exact Or.inl ab
                  · rw [cb] at cb'
                    cases cb'
                · exact Or.inr ⟨cb, ih tail more restTail tailMore⟩
                · rw [ba] at ba'
                  cases ba'

theorem beforeList_tri {κ : Type u} [Key κ] (first second : List κ) :
    beforeList first second = false → beforeList second first = false → first = second := by
  induction first generalizing second with
  | nil => cases second <;> simp [beforeList]
  | cons a rest ih =>
      cases second with
      | nil => simp [beforeList]
      | cons b tail =>
          simp only [beforeList, Bool.or_eq_false_iff, Bool.and_eq_false_iff, Bool.not_eq_false']
          rintro ⟨ab, tailBound⟩ ⟨ba, restBound⟩
          have same := tri a b ab ba
          subst same
          simp only [irrefl, Bool.false_eq_true, false_or] at tailBound restBound
          rw [ih tail tailBound restBound]

instance {κ : Type u} [Key κ] : Key (List κ) where
  before := beforeList
  irrefl := beforeList_irrefl
  trans := beforeList_trans
  tri := beforeList_tri

instance : Key String := ofInjective String.toList fun _ _ same => String.toList_inj.mp same

instance {κ : Type u} {μ : Type v} [Key κ] [Key μ] : Key (κ × μ) where
  before a b := before a.1 b.1 || (!before b.1 a.1 && before a.2 b.2)
  irrefl a := by simp [irrefl]
  trans a b c := by
    simp only [Bool.or_eq_true, Bool.and_eq_true, Bool.not_eq_true']
    rintro (ab | ⟨ba, restAB⟩) (bc | ⟨cb, restBC⟩)
    · exact Or.inl (trans _ _ _ ab bc)
    · rcases cases_on b.1 c.1 with bc | same | cb'
      · exact Or.inl (trans _ _ _ ab bc)
      · exact Or.inl (same ▸ ab)
      · rw [cb] at cb'
        cases cb'
    · rcases cases_on a.1 b.1 with ab | same | ba'
      · exact Or.inl (trans _ _ _ ab bc)
      · exact Or.inl (same ▸ bc)
      · rw [ba] at ba'
        cases ba'
    · rcases cases_on a.1 b.1 with ab | same | ba'
      · rcases cases_on b.1 c.1 with bc | same | cb'
        · exact Or.inl (trans _ _ _ ab bc)
        · exact Or.inl (same ▸ ab)
        · rw [cb] at cb'
          cases cb'
      · exact Or.inr ⟨same ▸ cb, trans _ _ _ restAB restBC⟩
      · rw [ba] at ba'
        cases ba'
  tri a b := by
    simp only [Bool.or_eq_false_iff, Bool.and_eq_false_iff, Bool.not_eq_false']
    rintro ⟨ab, restAB⟩ ⟨ba, restBA⟩
    have same := tri _ _ ab ba
    rw [same, irrefl] at restAB restBA
    simp only [Bool.false_eq_true, false_or] at restAB restBA
    exact Prod.ext same (tri _ _ restAB restBA)

/-- Pairs with the same first component order by the second. -/
theorem before_mk_self {κ : Type u} {μ : Type v} [Key κ] [Key μ] (first : κ) (second third : μ) :
    before (first, second) (first, third) = before second third := by
  change (before first first || (!before first first && before second third)) = _
  rw [irrefl]
  rfl

/-- The second component counts only if the first ones are the same. -/
theorem before_mk_iff {κ : Type u} {μ : Type v} [Key κ] [Key μ] {first third : κ} {second fourth : μ} :
    before (first, second) (third, fourth) = true ↔
      before first third = true ∨ first = third ∧ before second fourth = true := by
  change (before first third || (!before third first && before second fourth)) = true ↔ _
  rcases cases_on first third with earlier | rfl | later
  · simp [earlier]
  · simp [irrefl]
  · simp [later, asymm later, (ne_of_before later).symm]

end Key

end Chronicle
