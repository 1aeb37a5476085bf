import Chronicle.Dict
import Chronicle.Msgpack.Head

/-!
# MessagePack items

Texts, numbers, lists, dictionaries, records and variants. A record is written
as the array of its fields; it is read from such an array, or from a map from
field names to values in which names that are not known are passed over, as long
as their values are not nested too deeply. A variant without data is its name;
one with data is a map from the name to the data. Readers give what they read
together with the bytes that follow.
-/

namespace Chronicle.Msgpack

/-- Takes something from the front of a byte sequence. -/
abbrev Reader (α : Type) := Bytes → Option (α × Bytes)

/-! ## Writing -/

def writeText (text : String) : Bytes :=
  let bytes := Bytes.ofText text
  (Head.text bytes.length).encode ++ bytes

def writeBinary (bytes : Bytes) : Bytes := (Head.binary bytes.length).encode ++ bytes

def writeInt (value : Int) : Bytes := (Head.signed value).encode

def writeNat (value : Nat) : Bytes := (Head.unsigned value).encode

def writeOptional {α : Type} (write : α → Bytes) : Option α → Bytes
  | none => Head.nil.encode
  | some value => write value

def writeList {α : Type} (write : α → Bytes) (items : List α) : Bytes :=
  (Head.array items.length).encode ++ items.flatMap write

def writeDict {α : Type} (write : α → Bytes) (dict : Dict String α) : Bytes :=
  (Head.map dict.size).encode ++
    dict.entries.flatMap fun entry => writeText entry.1 ++ write entry.2

/-- The fields of a record, written already. -/
def writeRecord (fields : List Bytes) : Bytes := (Head.array fields.length).encode ++ fields.flatten

/-- A variant with data, written already. -/
def writeVariant (name : String) (data : Bytes) : Bytes :=
  (Head.map 1).encode ++ writeText name ++ data

/-! ## Reading -/

/-- A text; bytes that are the UTF-8 of one are read as well. -/
def readText : Reader String := fun bytes => do
  let (head, rest) ← Head.read? bytes
  match head with
  | .text length | .binary length =>
      let (content, rest) ← Bytes.split? length rest
      let text ← content.text?
      return (text, rest)
  | _ => none

/-- Bytes; a text that is no UTF-8 is read as bytes as well. -/
def readBinary : Reader Bytes := fun bytes => do
  let (head, rest) ← Head.read? bytes
  match head with
  | .binary length => Bytes.split? length rest
  | .text length =>
      let (content, rest) ← Bytes.split? length rest
      if content.text?.isNone then return (content, rest) else none
  | _ => none

/-- The number that a head holds in a form with or without a sign. -/
def Head.whole? : Head → Option Int
  | unsigned value => some value
  | signed value => some value
  | _ => none

/-- A whole number in the range from `low` to below `high`. -/
def readWhole (low high : Int) : Reader Int := fun bytes => do
  let (head, rest) ← Head.read? bytes
  let value ← head.whole?
  if low ≤ value ∧ value < high then return (value, rest) else none

def readInt64 : Reader Int64 := fun bytes =>
  (readWhole (-2 ^ 63) (2 ^ 63) bytes).map fun (value, rest) => (Int64.ofInt value, rest)

def readNat64 : Reader Nat := fun bytes =>
  (readWhole 0 (2 ^ 64) bytes).map fun (value, rest) => (value.toNat, rest)

/-- A double; whole numbers are rounded to one. -/
def readFloat : Reader Binary64 := fun bytes => do
  let (head, rest) ← Head.read? bytes
  match head with
  | .float value => return (value, rest)
  | .unsigned value => return (Binary64.ofInt value, rest)
  | .signed value => return (Binary64.ofInt value, rest)
  | _ => none

def readBool : Reader Bool := fun bytes => do
  let (head, rest) ← Head.read? bytes
  match head with
  | .bool value => return (value, rest)
  | _ => none

def readNil : Reader Unit := fun bytes => do
  let (head, rest) ← Head.read? bytes
  match head with
  | .nil => return ((), rest)
  | _ => none

def readOptional {α : Type} (read : Reader α) : Reader (Option α) := fun bytes =>
  match readNil bytes with
  | some (_, rest) => some (none, rest)
  | none => (read bytes).map fun (value, rest) => (some value, rest)

/-- A given number of items one after another. -/
def readItems {α : Type} (read : Reader α) : Nat → Reader (List α)
  | 0, bytes => some ([], bytes)
  | count + 1, bytes => do
      let (item, rest) ← read bytes
      let (items, rest) ← readItems read count rest
      return (item :: items, rest)

/-- A list; no bytes at all are read as a list without items. -/
def readList {α : Type} (read : Reader α) : Reader (List α) := fun bytes => do
  let (head, rest) ← Head.read? bytes
  match head with
  | .array length => readItems read length rest
  | .binary 0 => return ([], rest)
  | _ => none

/-- A name and a value. -/
def readEntry {α : Type} (read : Reader α) : Reader (String × α) := fun bytes => do
  let (name, rest) ← readText bytes
  let (value, rest) ← read rest
  return ((name, value), rest)

/-- A map from names; of two values with one name the later stays. -/
def readDict {α : Type} (read : Reader α) : Reader (Dict String α) := fun bytes => do
  let (head, rest) ← Head.read? bytes
  match head with
  | .map length =>
      let (entries, rest) ← readItems (readEntry read) length rest
      return (Dict.ofList entries, rest)
  | _ => none

/-- Passes over a given number of items. -/
def skipItems (skip : Bytes → Option Bytes) : (count : Nat) → Bytes → Option Bytes
  | 0, bytes => some bytes
  | count + 1, bytes =>
      match skip bytes with
      | none => none
      | some rest => skipItems skip count rest

/-- Passes over one item, in which at most `room` arrays, maps and extensions may
stand inside one another. -/
def skip : (room : Nat) → Bytes → Option Bytes
  | 0, bytes => do
      let (head, rest) ← Head.read? bytes
      match head.following with
      | .bytes length => (Bytes.split? length rest).map Prod.snd
      | _ => none
  | room + 1, bytes => do
      let (head, rest) ← Head.read? bytes
      match head.following with
      | .bytes length => (Bytes.split? length rest).map Prod.snd
      | .extension length => (Bytes.split? length rest).map Prod.snd
      | .items count => skipItems (skip room) count rest

/-- Which of some names stands next: the name itself as text or bytes, or its
place among them. `none` inside means that it is none of them. -/
def readName (names : List String) : Reader (Option Nat) := fun bytes => do
  let (head, rest) ← Head.read? bytes
  match head with
  | .text length | .binary length =>
      let (content, rest) ← Bytes.split? length rest
      return (names.findIdx? fun name => Bytes.ofText name = content, rest)
  | .unsigned place => return (if place < names.length then some place else none, rest)
  | _ => none

/-- Reads field after field of a record into `draft`. -/
def readFields {δ : Type} (readField : Nat → δ → Reader δ) : (count place : Nat) → δ → Reader δ
  | 0, _, draft, bytes => some (draft, bytes)
  | count + 1, place, draft, bytes => do
      let (draft, rest) ← readField place draft bytes
      readFields readField count (place + 1) draft rest

/-- Reads the entries of a map into `draft`, by the names of the fields. The values
of other names have `room` for nesting. -/
def readNamedFields {δ : Type} (room : Nat) (names : List String)
    (readField : Nat → δ → Reader δ) : (count : Nat) → δ → Reader δ
  | 0, draft, bytes => some (draft, bytes)
  | count + 1, draft, bytes => do
      let (place, rest) ← readName names bytes
      match place with
      | some place =>
          let (draft, rest) ← readField place draft rest
          readNamedFields room names readField count draft rest
      | none =>
          let rest ← skip room rest
          readNamedFields room names readField count draft rest

/-- How many arrays, maps and extensions may stand inside one another. -/
def nestingLimit : Nat := 1023

/-- A record with these field names, inside `depth` arrays and maps. `readField`
places one field into a draft and refuses one that is there already. -/
def readRecord {δ : Type} (depth : Nat) (names : List String) (start : δ)
    (readField : Nat → δ → Reader δ) : Reader δ := fun bytes => do
  let (head, rest) ← Head.read? bytes
  match head with
  | .array length =>
      if length = names.length then readFields readField length 0 start rest else none
  | .map length =>
      readNamedFields (nestingLimit - (depth + 1)) names readField length start rest
  | _ => none

/-- A field that must not be there yet. -/
def readOnce {α δ : Type} (old : Option α) (read : Reader α) (place : α → δ) : Reader δ :=
  fun bytes => if old.isSome then none else (read bytes).map fun (value, rest) => (place value, rest)

/-- Which of some variants follows, and whether data follows its name. -/
def readVariant (names : List String) : Reader (Nat × Bool) := fun bytes => do
  let (head, rest) ← Head.read? bytes
  match head with
  | .map length =>
      if length = 1 then
        let (place, rest) ← readName names rest
        let place ← place
        return ((place, true), rest)
      else none
  | _ =>
      let (place, rest) ← readName names bytes
      let place ← place
      return ((place, false), rest)

/-- A variant without data; where data may follow, it has to be nil. -/
def readPlain {α : Type} (value : α) (data : Bool) : Reader α := fun bytes =>
  if data then (readNil bytes).map fun (_, rest) => (value, rest) else some (value, bytes)

/-- The data of a variant that has some. -/
def readData {α β : Type} (read : Reader α) (make : α → β) (data : Bool) : Reader β := fun bytes =>
  if data then (read bytes).map fun (value, rest) => (make value, rest) else none

end Chronicle.Msgpack
