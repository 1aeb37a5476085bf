import Chronicle.Msgpack.Head
import Mathlib.Tactic.Ring

/-!
# Heads are read as they were written

Every head that is written is read as the same head, whatever follows it (`Takes`), as long as its
number fits the widest form: 32 bits for a length, 64 bits for a number. A number that is not
negative is read in the form without a sign.
-/

namespace Chronicle

/-! ## Numbers of fixed width -/

namespace Bytes

@[simp] theorem length_bigEndian (width number : Nat) : (bigEndian width number).length = width := by
  induction width with
  | zero => rfl
  | succ width ih => simp [bigEndian, ih]

theorem toNat_cons (byte : UInt8) (rest : Bytes) :
    toNat (byte :: rest) = byte.toNat * 256 ^ rest.length + toNat rest := by
  have fold : ∀ (bytes : Bytes) (number : Nat),
      bytes.foldl (fun number byte => 256 * number + byte.toNat) number =
        number * 256 ^ bytes.length + toNat bytes := by
    intro bytes
    induction bytes with
    | nil => simp [toNat]
    | cons first rest ih =>
        intro number
        simp only [toNat, List.foldl_cons] at ih ⊢
        rw [ih, ih (256 * 0 + first.toNat), List.length_cons, Nat.pow_succ]
        ring
  simpa [toNat] using fold rest byte.toNat

theorem toNat_bigEndian (width number : Nat) :
    (bigEndian width number).toNat = number % 256 ^ width := by
  induction width with
  | zero => rw [Nat.pow_zero, Nat.mod_one]; rfl
  | succ width ih =>
      rw [bigEndian, toNat_cons, ih, length_bigEndian, Nat.mod_pow_succ, UInt8.toNat_ofNat',
        Nat.add_comm, Nat.mul_comm]

theorem split?_append (bytes rest : Bytes) :
    split? bytes.length (bytes ++ rest) = some (bytes, rest) := by
  simp [split?]

end Bytes

namespace Msgpack

/-- The bytes are taken as a value, whatever follows them. -/
def Takes {α : Type} (read : Bytes → Option (α × Bytes)) (bytes : Bytes) (value : α) : Prop :=
  ∀ rest, read (bytes ++ rest) = some (value, rest)

namespace Head

theorem number?_bigEndian (width number : Nat) (rest : Bytes) :
    number? width (Bytes.bigEndian width number ++ rest) = some (number % 256 ^ width, rest) := by
  have split := Bytes.split?_append (Bytes.bigEndian width number) rest
  rw [Bytes.length_bigEndian] at split
  rw [number?, split, Option.map_some]
  simp only [Bytes.toNat_bigEndian]

/-- A marker that says everything is a head by itself. -/
theorem takes_complete {marker : UInt8} {head : Head}
    (meant : meaning marker.toNat = .complete head) : Takes read? [marker] head := by
  intro rest
  rw [List.singleton_append, read?, meant]

/-- A marker that announces a number is completed by it. -/
theorem takes_marked {marker : UInt8} {width number : Nat} {head : Nat → Head}
    (meant : meaning marker.toNat = .number width head) (fits : number < 256 ^ width) :
    Takes read? (marked marker width number) (head number) := by
  intro rest
  rw [marked, List.cons_append, read?, meant]
  simp only [number?_bigEndian, Option.map_some, Nat.mod_eq_of_lt fits]

theorem takes_ofNat {number : Nat} {head : Head} (small : number < 256)
    (meant : meaning number = .complete head) : Takes read? [UInt8.ofNat number] head := by
  refine takes_complete ?_
  rwa [UInt8.toNat_ofNat', Nat.mod_eq_of_lt small]

/-! ## Lengths -/

/-- A length below the widest form is read as it was written, if the markers mean it. -/
theorem takes_lengthHead {base limit : Nat} {one : Option UInt8} {two four : UInt8}
    {head : Nat → Head} (room : base + limit ≤ 256)
    (short : ∀ length, length < limit → meaning (base + length) = .complete (head length))
    (oneMeant : ∀ marker, one = some marker → meaning marker.toNat = .number 1 head)
    (twoMeant : meaning two.toNat = .number 2 head) (fourMeant : meaning four.toNat = .number 4 head)
    {length : Nat} (bounded : length < 2 ^ 32) :
    Takes read? (lengthHead base limit one two four length) (head length) := by
  unfold lengthHead
  split
  · rename_i small
    exact takes_ofNat (by omega) (short length small)
  · split
    · rename_i marker
      split
      · rename_i small
        exact takes_marked (oneMeant marker rfl) small
      · split
        · rename_i small
          exact takes_marked twoMeant small
        · exact takes_marked fourMeant bounded
    · split
      · rename_i small
        exact takes_marked twoMeant small
      · exact takes_marked fourMeant bounded

theorem takes_text {length : Nat} (bounded : length < 2 ^ 32) :
    Takes read? (text length).encode (text length) := by
  change Takes read? (lengthHead 0xa0 32 (some 0xd9) 0xda 0xdb length) (text length)
  refine takes_lengthHead (by decide) (fun length small => ?_) ?_ rfl rfl bounded
  · unfold meaning
    rw [if_neg (by omega), if_neg (by omega), if_neg (by omega), if_pos (by omega),
      Nat.add_sub_cancel_left]
  · rintro _ ⟨⟩
    rfl

theorem takes_binary {length : Nat} (bounded : length < 2 ^ 32) :
    Takes read? (binary length).encode (binary length) := by
  change Takes read? (lengthHead 0 0 (some 0xc4) 0xc5 0xc6 length) (binary length)
  refine takes_lengthHead (by decide) (fun _ impossible => absurd impossible (by omega)) ?_ rfl
    rfl bounded
  rintro _ ⟨⟩
  rfl

theorem takes_array {length : Nat} (bounded : length < 2 ^ 32) :
    Takes read? (array length).encode (array length) := by
  change Takes read? (lengthHead 0x90 16 none 0xdc 0xdd length) (array length)
  refine takes_lengthHead (by decide) (fun length small => ?_) ?_ rfl rfl bounded
  · unfold meaning
    rw [if_neg (by omega), if_neg (by omega), if_pos (by omega), Nat.add_sub_cancel_left]
  · exact nofun

theorem takes_map {length : Nat} (bounded : length < 2 ^ 32) :
    Takes read? (map length).encode (map length) := by
  change Takes read? (lengthHead 0x80 16 none 0xde 0xdf length) (map length)
  refine takes_lengthHead (by decide) (fun length small => ?_) ?_ rfl rfl bounded
  · unfold meaning
    rw [if_neg (by omega), if_pos (by omega), Nat.add_sub_cancel_left]
  · exact nofun

/-! ## Scalars -/

theorem takes_nil : Takes read? nil.encode nil := takes_complete rfl

theorem takes_bool (value : Bool) : Takes read? (bool value).encode (bool value) := by
  cases value with
  | false => exact takes_complete rfl
  | true => exact takes_complete rfl

theorem takes_float (value : Binary64) : Takes read? (float value).encode (float value) := by
  have fits : value.bits.toNat < 256 ^ 8 := value.bits.toNat_lt
  have meant : meaning (0xcb : UInt8).toNat = .number 8 fun bits => float ⟨UInt64.ofNat bits⟩ := rfl
  have taken := takes_marked meant fits
  rwa [UInt64.ofNat_toNat] at taken

theorem takes_unsigned {value : Nat} (bounded : value < 2 ^ 64) :
    Takes read? (unsigned value).encode (unsigned value) := by
  change Takes read? (unsignedHead value) (unsigned value)
  unfold unsignedHead
  split
  · rename_i small
    exact takes_ofNat (by omega) (if_pos small)
  · split
    · rename_i small
      exact takes_marked rfl small
    · split
      · rename_i small
        exact takes_marked rfl small
      · split
        · rename_i small
          exact takes_marked rfl small
        · exact takes_marked rfl bounded

/-- A negative number is found again from its bit pattern. -/
theorem ofComplement_complement {width : Nat} {value : Int} (negative : value < 0)
    (low : -(256 ^ width) ≤ 2 * value) :
    complement width value < 256 ^ width ∧ ofComplement width (complement width value) = value := by
  have cast : (256 : Int) ^ width = ((256 ^ width : Nat) : Int) := by push_cast; rfl
  unfold ofComplement complement
  rw [cast] at low ⊢
  generalize 256 ^ width = modulus at low
  split <;> omega

theorem takes_negative {marker : UInt8} {width : Nat} {value : Int}
    (meant : meaning marker.toNat = .number width fun pattern => signed (ofComplement width pattern))
    (negative : value < 0) (low : -(256 ^ width) ≤ 2 * value) :
    Takes read? (marked marker width (complement width value)) (signed value) := by
  obtain ⟨fits, same⟩ := ofComplement_complement negative low
  have taken := takes_marked meant fits
  rwa [same] at taken

/-- What is read where a number was written in its shortest form. -/
def ofInt (value : Int) : Head := if 0 ≤ value then unsigned value.toNat else signed value

theorem takes_signed {value : Int} (low : -2 ^ 63 ≤ value) (high : value < 2 ^ 63) :
    Takes read? (signed value).encode (ofInt value) := by
  change Takes read? (signedHead value) (ofInt value)
  unfold signedHead ofInt
  split
  · exact takes_unsigned (by omega)
  · rename_i negative
    have below : value < 0 := by omega
    split
    · rename_i small
      have found : complement 1 value < 256 ^ 1 ∧ ofComplement 1 (complement 1 value) = value :=
        ofComplement_complement below (by omega)
      refine takes_ofNat found.1 ?_
      have top : 0xe0 ≤ complement 1 value := by
        unfold complement
        omega
      unfold meaning
      rw [if_neg (by omega), if_neg (by omega), if_neg (by omega), if_neg (by omega), if_pos top,
        found.2]
    · split
      · exact takes_negative rfl below (by omega)
      · split
        · exact takes_negative rfl below (by omega)
        · split
          · exact takes_negative rfl below (by omega)
          · exact takes_negative rfl below (by omega)

end Head

end Msgpack

end Chronicle
