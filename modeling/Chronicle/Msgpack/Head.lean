import Chronicle.Bytes
import Chronicle.Number.Binary64

/-!
# Heads of MessagePack items

Each item begins with a head: a scalar, or the length of what follows. Heads are
written in their shortest form, numbers that are not negative in the forms
without a sign; longer forms are read as well.
-/

namespace Chronicle.Msgpack

/-- The beginning of an item. -/
inductive Head where
  | nil
  | bool (value : Bool)
  /-- A number in a form without a sign. -/
  | unsigned (value : Nat)
  /-- A number in a form with a sign. -/
  | signed (value : Int)
  | float (value : Binary64)
  | text (length : Nat)
  | binary (length : Nat)
  | array (length : Nat)
  | map (length : Nat)
  /-- An extension; its type, one byte, stands before its bytes. -/
  | extension (length : Nat)
  deriving DecidableEq, Inhabited

/-- A marker byte followed by a number of fixed width. -/
def marked (marker : UInt8) (width : Nat) (number : Nat) : Bytes :=
  marker :: Bytes.bigEndian width number

/-- The bit pattern of a negative number in a field of `width` bytes. -/
def complement (width : Nat) (value : Int) : Nat := (value + 256 ^ width).toNat

/-- A length with a short form below `limit`, and longer forms of one (if there
is one), two and four bytes. -/
def lengthHead (base : Nat) (limit : Nat) (one : Option UInt8) (two four : UInt8) (length : Nat) :
    Bytes :=
  if length < limit then [UInt8.ofNat (base + length)]
  else
    match one with
    | some one =>
        if length < 256 then marked one 1 length
        else if length < 65536 then marked two 2 length
        else marked four 4 length
    | none => if length < 65536 then marked two 2 length else marked four 4 length

/-- The shortest form of a number without a sign. -/
def unsignedHead (value : Nat) : Bytes :=
  if value < 128 then [UInt8.ofNat value]
  else if value < 256 then marked 0xcc 1 value
  else if value < 65536 then marked 0xcd 2 value
  else if value < 4294967296 then marked 0xce 4 value
  else marked 0xcf 8 value

/-- The shortest form of a number. -/
def signedHead (value : Int) : Bytes :=
  if 0 ≤ value then unsignedHead value.toNat
  else if -32 ≤ value then [UInt8.ofNat (complement 1 value)]
  else if -128 ≤ value then marked 0xd0 1 (complement 1 value)
  else if -32768 ≤ value then marked 0xd1 2 (complement 2 value)
  else if -2147483648 ≤ value then marked 0xd2 4 (complement 4 value)
  else marked 0xd3 8 (complement 8 value)

namespace Head

/-- The shortest form of a head. Extensions are never written. -/
def encode : Head → Bytes
  | nil => [0xc0]
  | bool false => [0xc2]
  | bool true => [0xc3]
  | unsigned value => unsignedHead value
  | signed value => signedHead value
  | float value => marked 0xcb 8 value.bits.toNat
  | text length => lengthHead 0xa0 32 (some 0xd9) 0xda 0xdb length
  | binary length => lengthHead 0 0 (some 0xc4) 0xc5 0xc6 length
  | array length => lengthHead 0x90 16 none 0xdc 0xdd length
  | map length => lengthHead 0x80 16 none 0xde 0xdf length
  | extension _ => []

/-- A number of fixed width, and what follows it. -/
def number? (width : Nat) (bytes : Bytes) : Option (Nat × Bytes) :=
  (Bytes.split? width bytes).map fun (digits, rest) => (digits.toNat, rest)

/-- Reads a bit pattern of `width` bytes as a number with a sign. -/
def ofComplement (width : Nat) (pattern : Nat) : Int :=
  if 2 * pattern < 256 ^ width then pattern else (pattern : Int) - 256 ^ width

/-- What a marker byte says: a complete head, or the width of a number and the
head that the number completes. -/
inductive Meaning where
  | complete (head : Head)
  | number (width : Nat) (head : Nat → Head)
  | unused

/-- The meaning of a marker byte. -/
def meaning (marker : Nat) : Meaning :=
  if marker < 0x80 then .complete (unsigned marker)
  else if marker < 0x90 then .complete (map (marker - 0x80))
  else if marker < 0xa0 then .complete (array (marker - 0x90))
  else if marker < 0xc0 then .complete (text (marker - 0xa0))
  else if 0xe0 ≤ marker then .complete (signed (ofComplement 1 marker))
  else
    match marker with
    | 0xc0 => .complete nil
    | 0xc2 => .complete (bool false)
    | 0xc3 => .complete (bool true)
    | 0xc4 => .number 1 binary
    | 0xc5 => .number 2 binary
    | 0xc6 => .number 4 binary
    | 0xc7 => .number 1 extension
    | 0xc8 => .number 2 extension
    | 0xc9 => .number 4 extension
    | 0xca => .number 4 fun bits => float (Binary64.ofBinary32 bits)
    | 0xcb => .number 8 fun bits => float ⟨UInt64.ofNat bits⟩
    | 0xcc => .number 1 unsigned
    | 0xcd => .number 2 unsigned
    | 0xce => .number 4 unsigned
    | 0xcf => .number 8 unsigned
    | 0xd0 => .number 1 fun pattern => signed (ofComplement 1 pattern)
    | 0xd1 => .number 2 fun pattern => signed (ofComplement 2 pattern)
    | 0xd2 => .number 4 fun pattern => signed (ofComplement 4 pattern)
    | 0xd3 => .number 8 fun pattern => signed (ofComplement 8 pattern)
    | 0xd4 => .complete (extension 1)
    | 0xd5 => .complete (extension 2)
    | 0xd6 => .complete (extension 4)
    | 0xd7 => .complete (extension 8)
    | 0xd8 => .complete (extension 16)
    | 0xd9 => .number 1 text
    | 0xda => .number 2 text
    | 0xdb => .number 4 text
    | 0xdc => .number 2 array
    | 0xdd => .number 4 array
    | 0xde => .number 2 map
    | 0xdf => .number 4 map
    | _ => .unused

/-- Reads a head of any form. -/
def read? : Bytes → Option (Head × Bytes)
  | [] => none
  | marker :: rest =>
      match meaning marker.toNat with
      | .complete head => some (head, rest)
      | .number width head => (number? width rest).map fun (value, rest) => (head value, rest)
      | .unused => none

/-- What completes an item after its head. -/
inductive Following where
  /-- So many bytes, none for a scalar. -/
  | bytes (length : Nat)
  /-- The type and the bytes of an extension. -/
  | extension (length : Nat)
  /-- So many items. -/
  | items (count : Nat)

def following : Head → Following
  | text length => .bytes length
  | binary length => .bytes length
  | extension length => .extension (length + 1)
  | array length => .items length
  | map length => .items (2 * length)
  | _ => .bytes 0

end Head

end Chronicle.Msgpack
