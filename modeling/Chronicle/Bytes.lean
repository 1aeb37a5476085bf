import Chronicle.Number.Power

/-!
# Bytes

Byte sequences, numbers of a fixed width with the most significant byte first,
and hexadecimal text.
-/

namespace Chronicle

/-- A sequence of bytes. -/
abbrev Bytes := List UInt8

namespace Bytes

/-- The bytes of `number` modulo `256 ^ width`, most significant first. -/
def bigEndian : (width : Nat) → (number : Nat) → Bytes
  | 0, _ => []
  | width + 1, number => UInt8.ofNat (number / 256 ^ width) :: bigEndian width number

/-- The number that a byte sequence writes, most significant byte first. -/
def toNat (bytes : Bytes) : Nat :=
  bytes.foldl (fun number byte => 256 * number + byte.toNat) 0

/-- The first `count` bytes and what follows them, if there are that many. -/
def split? (count : Nat) (bytes : Bytes) : Option (Bytes × Bytes) :=
  if bytes.length < count then none else some (bytes.take count, bytes.drop count)

/-- The UTF-8 bytes of a text. -/
def ofText (text : String) : Bytes := text.toUTF8.data.toList

/-- The text whose UTF-8 bytes these are. -/
def text? (bytes : Bytes) : Option String := String.fromUTF8? ⟨bytes.toArray⟩

end Bytes

/-! ## Hexadecimal text -/

namespace Hex

/-- The lower-case digit of a number below sixteen. -/
def digit (value : Nat) : Char :=
  if value < 10 then Char.ofNat (48 + value) else Char.ofNat (87 + value)

/-- The number that a digit of either case stands for. -/
def value? (char : Char) : Option Nat :=
  let code := char.toNat
  if 48 ≤ code ∧ code ≤ 57 then some (code - 48)
  else if 97 ≤ code ∧ code ≤ 102 then some (code - 87)
  else if 65 ≤ code ∧ code ≤ 70 then some (code - 55)
  else none

/-- The last `width` digits of a number, most significant first. -/
def digits : (width : Nat) → (number : Nat) → List Char
  | 0, _ => []
  | width + 1, number => digit (number / 16 ^ width % 16) :: digits width number

/-- The number that a sequence of digits writes; `none` if a character is no digit. -/
def number? (chars : List Char) : Option Nat :=
  chars.foldlM (fun number char => (value? char).map fun value => 16 * number + value) 0

/-- Two digits for each byte. -/
def encode (bytes : Bytes) : String :=
  String.ofList (bytes.flatMap fun byte => digits 2 byte.toNat)

/-- Reads pairs of digits. -/
def decodeChars : List Char → Option Bytes
  | [] => some []
  | [_] => none
  | high :: low :: rest =>
      match value? high, value? low, decodeChars rest with
      | some high, some low, some bytes => some (UInt8.ofNat (16 * high + low) :: bytes)
      | _, _, _ => none

/-- The bytes that a text writes, two digits for each. -/
def decode? (text : String) : Option Bytes := decodeChars text.toList

end Hex

end Chronicle
