import Chronicle.Bytes
import Chronicle.Json
import Chronicle.Number.Decimal

/-!
# Lexemes of JSON text

Blanks, words, strings and numbers. Each function takes the characters that are
left and gives what it read together with what follows; `none` means that the
text is malformed.
-/

namespace Chronicle.Json.Lexeme

/-- Space, tab, line feed and carriage return. -/
def isBlank (char : Char) : Bool := char = ' ' || char = '\n' || char = '\t' || char = '\r'

def skipBlanks (chars : List Char) : List Char := chars.dropWhile isBlank

/-- Passes over a fixed word. -/
def word? : List Char → List Char → Option (List Char)
  | [], chars => some chars
  | _ :: _, [] => none
  | expected :: more, char :: rest => if expected = char then word? more rest else none

/-! ## Strings -/

/-- The number that four hexadecimal digits write. -/
def unit? (a b c d : Char) : Option Nat := Hex.number? [a, b, c, d]

/-- What a letter after a backslash stands for. -/
def escaped? : Char → Option Char
  | '"' => some '"'
  | '\\' => some '\\'
  | '/' => some '/'
  | 'b' => some '\x08'
  | 'f' => some '\x0c'
  | 'n' => some '\n'
  | 'r' => some '\r'
  | 't' => some '\t'
  | _ => none

/-- The characters of a string up to its closing quote. Control characters have
to be escaped, and a surrogate needs its other half. -/
def string? : List Char → Option (List Char × List Char)
  | [] => none
  | '"' :: rest => some ([], rest)
  | '\\' :: 'u' :: a :: b :: c :: d :: rest =>
      match unit? a b c d with
      | none => none
      | some high =>
          if 0xD800 ≤ high ∧ high < 0xDC00 then
            match rest with
            | '\\' :: 'u' :: e :: f :: g :: h :: rest =>
                match unit? e f g h with
                | none => none
                | some low =>
                    if 0xDC00 ≤ low ∧ low < 0xE000 then
                      (string? rest).map fun (chars, rest) =>
                        (Char.ofNat (0x10000 + (high - 0xD800) * 0x400 + (low - 0xDC00)) :: chars,
                          rest)
                    else none
            | _ => none
          else if 0xDC00 ≤ high ∧ high < 0xE000 then none
          else (string? rest).map fun (chars, rest) => (Char.ofNat high :: chars, rest)
  | '\\' :: char :: rest =>
      match escaped? char with
      | none => none
      | some char => (string? rest).map fun (chars, rest) => (char :: chars, rest)
  | char :: rest =>
      if char = '\\' ∨ char.toNat < 0x20 then none
      else (string? rest).map fun (chars, rest) => (char :: chars, rest)

/-- Passes over a string up to its closing quote; surrogates are not paired. -/
def skipString? : List Char → Option (List Char)
  | [] => none
  | '"' :: rest => some rest
  | '\\' :: 'u' :: a :: b :: c :: d :: rest => (unit? a b c d).bind fun _ => skipString? rest
  | '\\' :: char :: rest => (escaped? char).bind fun _ => skipString? rest
  | char :: rest => if char = '\\' ∨ char.toNat < 0x20 then none else skipString? rest

/-! ## Numbers -/

/-- The digits of a number: whole part, fraction and exponent. -/
structure Numeral where
  negative : Bool
  whole : List Char
  fraction : Option (List Char)
  exponent : Option (Bool × List Char)

def isDigit (char : Char) : Bool := 48 ≤ char.toNat && char.toNat ≤ 57

/-- At least one digit. -/
def digits? (chars : List Char) : Option (List Char × List Char) :=
  match chars.takeWhile isDigit with
  | [] => none
  | digits => some (digits, chars.dropWhile isDigit)

/-- The digits of a whole part, which has no needless zero in front. -/
def whole? (chars : List Char) : Option (List Char × List Char) :=
  match digits? chars with
  | some ('0' :: _ :: _, _) => none
  | found => found

/-- A fraction, if a point follows. -/
def fraction? : List Char → Option (Option (List Char) × List Char)
  | '.' :: rest => (digits? rest).map fun (digits, rest) => (some digits, rest)
  | rest => some (none, rest)

/-- An exponent, if its letter follows; the flag says that it is negative. -/
def exponent? : List Char → Option (Option (Bool × List Char) × List Char)
  | [] => some (none, [])
  | mark :: rest =>
      if mark = 'e' ∨ mark = 'E' then
        match rest with
        | '+' :: rest => (digits? rest).map fun (digits, rest) => (some (false, digits), rest)
        | '-' :: rest => (digits? rest).map fun (digits, rest) => (some (true, digits), rest)
        | rest => (digits? rest).map fun (digits, rest) => (some (false, digits), rest)
      else some (none, mark :: rest)

/-- A number's digits. -/
def numeral? (chars : List Char) : Option (Numeral × List Char) := do
  let (negative, chars) :=
    match chars with
    | '-' :: rest => (true, rest)
    | rest => (false, rest)
  let (whole, chars) ← whole? chars
  let (fraction, chars) ← fraction? chars
  let (exponent, chars) ← exponent? chars
  return (⟨negative, whole, fraction, exponent⟩, chars)

/-- Appends digits to a significand as long as it stays below `2 ^ 64`; gives the
digits that no longer fit. -/
def absorb : Nat → List Char → Nat × List Char
  | significand, [] => (significand, [])
  | significand, digit :: rest =>
      let longer := 10 * significand + (digit.toNat - 48)
      if longer < 2 ^ 64 then absorb longer rest else (significand, digit :: rest)

/-- The number that decimal digits write. -/
def natural (digits : List Char) : Nat :=
  digits.foldl (fun number digit => 10 * number + (digit.toNat - 48)) 0

/-- The value of a numeral. One without fraction and exponent is an integer, if
it fits into 64 bits with or without a sign; negative zero is not an integer. -/
def Numeral.value? (numeral : Numeral) : Option Json :=
  let (significand, dropped) := absorb 0 numeral.whole
  let decimal (significand : Nat) (exponent : Int) : Option Json :=
    (Decimal.ofParts? numeral.negative significand exponent).map Json.float
  match numeral.fraction, numeral.exponent with
  | none, none =>
      if dropped ≠ [] then decimal significand dropped.length
      else if !numeral.negative then some (Json.int significand)
      else if 0 < significand ∧ significand ≤ 2 ^ 63 then some (Json.int (-(significand : Int)))
      else decimal significand 0
  | fraction, exponent =>
      let digits := fraction.getD []
      let (significand, rest) := absorb significand digits
      let shift : Int := (dropped.length : Int) - (digits.length - rest.length : Nat)
      let power : Int :=
        match exponent with
        | none => 0
        | some (negative, digits) => if negative then -(natural digits : Int) else natural digits
      decimal significand (shift + power)

end Chronicle.Json.Lexeme
