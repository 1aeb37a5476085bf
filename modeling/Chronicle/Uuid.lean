import Chronicle.Bytes
import Chronicle.Key

/-!
# Universally unique identifiers

An identifier is a number of 128 bits. Its canonical text is lower-case and
hyphenated; four spellings are read: 32 digits, the hyphenated form, the
hyphenated form in braces, and the hyphenated form after `urn:uuid:` in any
case. Records and conflicts have identifier types of their own.
-/

namespace Chronicle

/-- A number of 128 bits, written as 16 bytes. -/
structure Uuid where
  bits : BitVec 128
  deriving DecidableEq, Inhabited

namespace Uuid

instance : Key Uuid :=
  Key.ofInjective Uuid.bits fun first second same => by
    cases first
    cases second
    cases same
    rfl

/-- The 16 bytes, most significant first. -/
def bytes (id : Uuid) : Bytes := Bytes.bigEndian 16 id.bits.toNat

/-- Reads exactly 16 bytes. -/
def ofBytes? (bytes : Bytes) : Option Uuid :=
  if bytes.length = 16 then some ⟨BitVec.ofNat 128 bytes.toNat⟩ else none

/-! ## Text -/

/-- Sets hyphens after the digits 8, 12, 16 and 20. -/
def hyphenate (digits : List Char) : List Char :=
  digits.take 8 ++ '-' :: (digits.drop 8).take 4 ++ '-' :: (digits.drop 12).take 4 ++
    '-' :: (digits.drop 16).take 4 ++ '-' :: digits.drop 20

/-- The characters of the canonical form. -/
def chars (id : Uuid) : List Char := hyphenate (Hex.digits 32 id.bits.toNat)

/-- The canonical form: lower-case digits in groups of 8, 4, 4, 4 and 12. -/
def text (id : Uuid) : String := String.ofList id.chars

/-- The digits of the first group, for messages that need no more. -/
def head (id : Uuid) : String := String.ofList (id.chars.take 8)

/-- Reads 32 digits. -/
def ofDigits? (digits : List Char) : Option Uuid :=
  if digits.length = 32 then (Hex.number? digits).map fun number => ⟨BitVec.ofNat 128 number⟩
  else none

/-- Reads the hyphenated form of 36 characters. -/
def ofHyphenated? (chars : List Char) : Option Uuid :=
  if chars.length = 36 ∧ chars[8]? = some '-' ∧ chars[13]? = some '-' ∧ chars[18]? = some '-' ∧
      chars[23]? = some '-' then
    ofDigits? (chars.take 8 ++ (chars.drop 9).take 4 ++ (chars.drop 14).take 4 ++
      (chars.drop 19).take 4 ++ chars.drop 24)
  else none

/-- The letters that may stand before the hyphenated form, in any case. -/
def urnScheme : List Char := ['u', 'r', 'n', ':', 'u', 'u', 'i', 'd', ':']

/-- Reads any of the four spellings; the length tells which one it can be. -/
def ofChars? (chars : List Char) : Option Uuid :=
  match chars.length with
  | 32 => ofDigits? chars
  | 36 => ofHyphenated? chars
  | 38 =>
      if chars.head? = some '{' ∧ chars.getLast? = some '}' then
        ofHyphenated? (chars.drop 1).dropLast
      else none
  | 45 =>
      if (chars.take 9).map Char.toLower = urnScheme then ofHyphenated? (chars.drop 9) else none
  | _ => none

/-- Reads any of the four spellings. -/
def ofText? (text : String) : Option Uuid := ofChars? text.toList

end Uuid

/-! ## Records and conflicts -/

/-- Names a record: a story, a news item or an attribute. -/
structure EntityId where
  uuid : Uuid
  deriving DecidableEq, Inhabited

namespace EntityId

instance : Key EntityId :=
  Key.ofInjective EntityId.uuid fun first second same => by
    cases first
    cases second
    cases same
    rfl

def text (id : EntityId) : String := id.uuid.text

def ofText? (text : String) : Option EntityId := (Uuid.ofText? text).map EntityId.mk

/-- A short form for logs: the first eight digits. -/
def label (id : EntityId) : String := "EntityId(" ++ id.uuid.head ++ ")"

end EntityId

/-- Names a pending conflict. -/
structure ConflictId where
  uuid : Uuid
  deriving DecidableEq, Inhabited

namespace ConflictId

instance : Key ConflictId :=
  Key.ofInjective ConflictId.uuid fun first second same => by
    cases first
    cases second
    cases same
    rfl

def text (id : ConflictId) : String := id.uuid.text

def ofText? (text : String) : Option ConflictId := (Uuid.ofText? text).map ConflictId.mk

/-- A short form for logs: the first eight digits. -/
def label (id : ConflictId) : String := "ConflictId(" ++ id.uuid.head ++ ")"

end ConflictId

end Chronicle
