import Chronicle.Json.Lexeme

/-!
# Reading JSON text

`Json.ofText?` reads one value with nothing but blanks around it. `skipValue`
passes over a value that nobody asks for: it checks the grammar only, so a
number too large or a lone surrogate does no harm there.

The first argument of the recursive functions bounds their depth and is never
reached: each step takes at least one character.
-/

namespace Chronicle.Json

open Lexeme

mutual

/-- One value, with blanks before it. -/
def readValue : Nat → List Char → Option (Json × List Char)
  | 0, _ => none
  | bound + 1, chars =>
      match skipBlanks chars with
      | '{' :: rest =>
          match skipBlanks rest with
          | '}' :: rest => some (object [], rest)
          | rest => (readMembers bound rest).map fun (members, rest) => (ofMembers members, rest)
      | '[' :: rest =>
          match skipBlanks rest with
          | ']' :: rest => some (array [], rest)
          | rest => (readItems bound rest).map fun (items, rest) => (array items, rest)
      | '"' :: rest => (string? rest).map fun (chars, rest) => (text (String.ofList chars), rest)
      | 't' :: rest => (word? ['r', 'u', 'e'] rest).map fun rest => (bool true, rest)
      | 'f' :: rest => (word? ['a', 'l', 's', 'e'] rest).map fun rest => (bool false, rest)
      | 'n' :: rest => (word? ['u', 'l', 'l'] rest).map fun rest => (null, rest)
      | chars => (numeral? chars).bind fun (numeral, rest) =>
          numeral.value?.map fun value => (value, rest)

/-- The items of an array that is not empty, and its closing bracket. -/
def readItems : Nat → List Char → Option (List Json × List Char)
  | 0, _ => none
  | bound + 1, chars =>
      match readValue bound chars with
      | none => none
      | some (item, rest) =>
          match skipBlanks rest with
          | ',' :: rest => (readItems bound rest).map fun (items, rest) => (item :: items, rest)
          | ']' :: rest => some ([item], rest)
          | _ => none

/-- The members of an object that is not empty, and its closing brace. -/
def readMembers : Nat → List Char → Option (List (String × Json) × List Char)
  | 0, _ => none
  | bound + 1, chars =>
      match skipBlanks chars with
      | '"' :: rest =>
          match string? rest with
          | none => none
          | some (name, rest) =>
              match skipBlanks rest with
              | ':' :: rest =>
                  match readValue bound rest with
                  | none => none
                  | some (value, rest) =>
                      let member := (String.ofList name, value)
                      match skipBlanks rest with
                      | ',' :: rest =>
                          (readMembers bound rest).map fun (members, rest) =>
                            (member :: members, rest)
                      | '}' :: rest => some ([member], rest)
                      | _ => none
              | _ => none
      | _ => none

end

/-- The value that a text writes. -/
def ofText? (text : String) : Option Json :=
  let chars := text.toList
  match readValue (chars.length + 1) chars with
  | some (value, rest) => if skipBlanks rest = [] then some value else none
  | none => none

mutual

/-- Passes over one value, with blanks before it. -/
def skipValue : Nat → List Char → Option (List Char)
  | 0, _ => none
  | bound + 1, chars =>
      match skipBlanks chars with
      | '{' :: rest =>
          match skipBlanks rest with
          | '}' :: rest => some rest
          | rest => skipMembers bound rest
      | '[' :: rest =>
          match skipBlanks rest with
          | ']' :: rest => some rest
          | rest => skipItems bound rest
      | '"' :: rest => skipString? rest
      | 't' :: rest => word? ['r', 'u', 'e'] rest
      | 'f' :: rest => word? ['a', 'l', 's', 'e'] rest
      | 'n' :: rest => word? ['u', 'l', 'l'] rest
      | chars => (numeral? chars).map Prod.snd

/-- Passes over the items of an array that is not empty, and its closing bracket. -/
def skipItems : Nat → List Char → Option (List Char)
  | 0, _ => none
  | bound + 1, chars =>
      match skipValue bound chars with
      | none => none
      | some rest =>
          match skipBlanks rest with
          | ',' :: rest => skipItems bound rest
          | ']' :: rest => some rest
          | _ => none

/-- Passes over the members of an object that is not empty, and its closing brace. -/
def skipMembers : Nat → List Char → Option (List Char)
  | 0, _ => none
  | bound + 1, chars =>
      match skipBlanks chars with
      | '"' :: rest =>
          match skipString? rest with
          | none => none
          | some rest =>
              match skipBlanks rest with
              | ':' :: rest =>
                  match skipValue bound rest with
                  | none => none
                  | some rest =>
                      match skipBlanks rest with
                      | ',' :: rest => skipMembers bound rest
                      | '}' :: rest => some rest
                      | _ => none
              | _ => none
      | _ => none

end

end Chronicle.Json
