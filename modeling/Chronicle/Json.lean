import Chronicle.Dict
import Chronicle.Number.Binary64

/-!
# JSON values

Numbers keep apart integers and doubles. The members of an object stand in
ascending order of their names, each name once: `Json.ofMembers` brings them
into that form, and of two members with one name the later stays.
-/

namespace Chronicle

/-- A JSON value. -/
inductive Json where
  | null
  | bool (value : Bool)
  | int (value : Int)
  | float (value : Binary64)
  | text (value : String)
  | array (items : List Json)
  | object (members : List (String × Json))
  deriving Inhabited

namespace Json

/-- An object with the members of a dictionary. -/
def ofDict (members : Dict String Json) : Json := object members.entries

/-- An object with these members. -/
def ofMembers (members : List (String × Json)) : Json := ofDict (Dict.ofList members)

/-- A natural number. -/
def nat (value : Nat) : Json := int value

/-- A value that may be missing, written as `null` then. -/
def optional {α : Type} (write : α → Json) : Option α → Json
  | none => null
  | some value => write value

/-! ## Reading a value as something -/

def isNull : Json → Bool
  | null => true
  | _ => false

def bool? : Json → Option Bool
  | bool value => some value
  | _ => none

def text? : Json → Option String
  | text value => some value
  | _ => none

/-- A whole number of 64 bits with a sign. -/
def int64? : Json → Option Int64
  | int value => if -2 ^ 63 ≤ value ∧ value < 2 ^ 63 then some (Int64.ofInt value) else none
  | _ => none

/-- A whole number that is not negative. -/
def nat? : Json → Option Nat
  | int value => if 0 ≤ value then some value.toNat else none
  | _ => none

/-- Any number, rounded to double precision. -/
def float? : Json → Option Binary64
  | int value => some (Binary64.ofInt value)
  | float value => some value
  | _ => none

def array? : Json → Option (List Json)
  | array items => some items
  | _ => none

def object? : Json → Option (Dict String Json)
  | object members => some (Dict.ofList members)
  | _ => none

end Json

end Chronicle
