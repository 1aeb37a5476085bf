import Chronicle.Bytes
import Chronicle.Json
import Chronicle.Number.Decimal

/-!
# Writing JSON text

Compact text without blanks. Quotes, backslashes and control characters are
escaped and everything else stands as it is; doubles have the fewest digits that
read back, and those that are not finite are written as `null`.
-/

namespace Chronicle.Json

/-- Doubles are written positionally from `10 ^ -5` up to below `10 ^ 16`, and with a
signed exponent outside. -/
def floatLayout : Decimal.Layout := ⟨-5, 15, "e", "+"⟩

/-- One character inside a string. -/
def escape (char : Char) : List Char :=
  match char with
  | '"' => ['\\', '"']
  | '\\' => ['\\', '\\']
  | '\x08' => ['\\', 'b']
  | '\x0c' => ['\\', 'f']
  | '\n' => ['\\', 'n']
  | '\r' => ['\\', 'r']
  | '\t' => ['\\', 't']
  | char =>
      if char.toNat < 0x20 then ['\\', 'u', '0', '0'] ++ Hex.digits 2 char.toNat else [char]

/-- A string in quotes. -/
def quote (text : String) : String :=
  String.ofList ('"' :: text.toList.flatMap escape ++ ['"'])

mutual

/-- The text of a value. -/
def write : Json → String
  | null => "null"
  | bool true => "true"
  | bool false => "false"
  | int value => Decimal.integer value
  | float value => if value.isFinite then Decimal.write floatLayout value else "null"
  | text value => quote value
  | array items => "[" ++ String.intercalate "," (writeItems items) ++ "]"
  | object members => "\x7b" ++ String.intercalate "," (writeMembers members) ++ "\x7d"

def writeItems : List Json → List String
  | [] => []
  | item :: rest => write item :: writeItems rest

def writeMembers : List (String × Json) → List String
  | [] => []
  | (name, value) :: rest => (quote name ++ ":" ++ write value) :: writeMembers rest

end

end Chronicle.Json
