import Chronicle.Json.Reader

/-!
# Settings

Settings are read from JSON text: an object, in which names that are not known
are passed over and a known one must not be repeated, or an array with the
settings in their sequence. What is left out has its default.
-/

namespace Chronicle

/-- How a store is opened and used. -/
structure Settings where
  /-- The file of the store; in memory if there is none. -/
  databasePath : Option String := none
  /-- How long to wait for the file, in milliseconds. -/
  busyTimeout : Nat := 5000
  /-- How often a taken version number is tried again. -/
  maxRetries : Nat := 3
  deriving DecidableEq, Inhabited

namespace Settings

open Json Json.Lexeme

/-- The settings that have been read. -/
structure Draft where
  databasePath : Option (Option String) := none
  busyTimeout : Option Nat := none
  maxRetries : Option Nat := none

/-- The names of the settings in their sequence. -/
def names : List String := ["database_path", "busy_timeout_ms", "max_version_retries"]

/-- A string, or null for none. -/
def readPath (chars : List Char) : Option (Option String × List Char) :=
  match skipBlanks chars with
  | 'n' :: rest => (word? ['u', 'l', 'l'] rest).map fun rest => (none, rest)
  | '"' :: rest => (string? rest).map fun (path, rest) => (some (String.ofList path), rest)
  | _ => none

/-- A whole number below `limit`, written without fraction and exponent. -/
def readNatural (limit : Nat) (chars : List Char) : Option (Nat × List Char) := do
  let (numeral, rest) ← numeral? (skipBlanks chars)
  let value ← numeral.value?
  let number ← value.nat?
  if number < limit then return (number, rest) else none

/-- The value of the setting at a place in the sequence. -/
def readPlace (place : Nat) (draft : Draft) (chars : List Char) : Option (Draft × List Char) :=
  match place with
  | 0 =>
      if draft.databasePath.isSome then none
      else (readPath chars).map fun (value, rest) =>
        ({ draft with databasePath := some value }, rest)
  | 1 =>
      if draft.busyTimeout.isSome then none
      else (readNatural (2 ^ 64) chars).map fun (value, rest) =>
        ({ draft with busyTimeout := some value }, rest)
  | 2 =>
      if draft.maxRetries.isSome then none
      else (readNatural (2 ^ 32) chars).map fun (value, rest) =>
        ({ draft with maxRetries := some value }, rest)
  | _ => none

/-- The value of the setting with a name; that of a name that is not known is passed
over. -/
def readNamed (name : String) (draft : Draft) (chars : List Char) : Option (Draft × List Char) :=
  match names.findIdx? fun known => known = name with
  | some place => readPlace place draft chars
  | none => (skipValue (chars.length + 1) chars).map fun rest => (draft, rest)

/-- The members of an object that is not empty, and its closing brace. The first
argument bounds their number. -/
def readMembers : Nat → Draft → List Char → Option (Draft × List Char)
  | 0, _, _ => none
  | bound + 1, draft, chars => do
      let '"' :: rest := skipBlanks chars | none
      let (name, rest) ← string? rest
      let ':' :: rest := skipBlanks rest | none
      let (draft, rest) ← readNamed (String.ofList name) draft rest
      match skipBlanks rest with
      | ',' :: rest => readMembers bound draft rest
      | '}' :: rest => return (draft, rest)
      | _ => none

/-- The items of an array that is not empty, and its closing bracket. -/
def readItems : (count place : Nat) → Draft → List Char → Option (Draft × List Char)
  | 0, _, _, _ => none
  | count + 1, place, draft, chars => do
      let (draft, rest) ← readPlace place draft chars
      match skipBlanks rest with
      | ',' :: rest => readItems count (place + 1) draft rest
      | ']' :: rest => return (draft, rest)
      | _ => none

/-- Fills in the defaults. -/
def Draft.settle (draft : Draft) : Settings :=
  let defaults : Settings := {}
  ⟨draft.databasePath.getD defaults.databasePath, draft.busyTimeout.getD defaults.busyTimeout,
    draft.maxRetries.getD defaults.maxRetries⟩

/-- The settings of an object or an array, and what follows it. -/
def readSettings (chars : List Char) : Option (Draft × List Char) :=
  match skipBlanks chars with
  | '{' :: rest =>
      match skipBlanks rest with
      | '}' :: rest => some ({}, rest)
      | rest => readMembers (rest.length + 1) {} rest
  | '[' :: rest =>
      match skipBlanks rest with
      | ']' :: rest => some ({}, rest)
      | rest => readItems names.length 0 {} rest
  | _ => none

/-- Reads settings; `none` if the text is malformed or a value is out of place. -/
def ofText? (text : String) : Option Settings := do
  let (draft, rest) ← readSettings text.toList
  if skipBlanks rest = [] then return draft.settle else none

end Settings

end Chronicle
