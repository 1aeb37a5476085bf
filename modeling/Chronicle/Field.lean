import Chronicle.Number.Binary64
import Chronicle.Uuid

/-!
# Field values

A field holds a value of its declared type, or `null`, which fits every type.
Values of different types are different, also when they write the same number,
and doubles are compared by their bits.
-/

namespace Chronicle

/-- The declared type of a field. -/
inductive FieldType where
  | text
  | integer
  | float
  | boolean
  | timestamp
  | reference
  deriving DecidableEq, Inhabited

/-- The name in messages. -/
def FieldType.name : FieldType → String
  | text => "text"
  | integer => "integer"
  | float => "float"
  | boolean => "boolean"
  | timestamp => "timestamp"
  | reference => "entity_ref"

def FieldType.ofName? : String → Option FieldType
  | "text" => some text
  | "integer" => some integer
  | "float" => some float
  | "boolean" => some boolean
  | "timestamp" => some timestamp
  | "entity_ref" => some reference
  | _ => none

/-- The value of a field. -/
inductive FieldValue where
  | null
  | text (value : String)
  | integer (value : Int64)
  | float (value : Binary64)
  | boolean (value : Bool)
  | timestamp (value : Int64)
  | reference (id : EntityId)
  deriving DecidableEq, Inhabited

namespace FieldValue

def isNull : FieldValue → Bool
  | null => true
  | _ => false

/-- The type of a value; `null` has none. -/
def type? : FieldValue → Option FieldType
  | null => none
  | text _ => some .text
  | integer _ => some .integer
  | float _ => some .float
  | boolean _ => some .boolean
  | timestamp _ => some .timestamp
  | reference _ => some .reference

def text? : FieldValue → Option String
  | text value => some value
  | _ => none

def integer? : FieldValue → Option Int64
  | integer value => some value
  | _ => none

def boolean? : FieldValue → Option Bool
  | boolean value => some value
  | _ => none

end FieldValue

end Chronicle
