import Chronicle.Number.Binary64

/-!
# Decimal text of numbers

`shortest` chooses the fewest digits that read back as the same number, and of
those the nearest to it. `Layout` says how such digits are set: positionally or
with an exponent. `ofParts?` reads a decimal with at most two roundings.
-/

namespace Chronicle.Decimal

/-- The value `digits * 10 ^ exponent`. -/
structure Scaled where
  digits : Nat
  exponent : Int
  deriving DecidableEq

/-! ## Fewest digits -/

/-- Half the gap to the neighbour below and above, both over the same
denominator as the value, which is returned in the middle: the numbers that
round to `number` lie between `value - below` and `value + above`. -/
structure Interval where
  value : Nat
  below : Nat
  above : Nat
  denominator : Nat
  ends : Bool

/-- The interval of a positive finite number. The gap below a power of two is
half the gap above it, except at the bottom of the range. The ends belong to
the interval when the significand is even. -/
def interval (number : Binary64) : Interval :=
  let significand := number.significand
  let narrow := number.fraction = 0 ∧ 1 < number.exponentField
  let scale : Nat × Nat :=
    if 0 ≤ number.exponent then (2 ^ number.exponent.toNat, 1)
    else (1, 2 ^ (-number.exponent).toNat)
  { value := 4 * significand * scale.1
    below := (if narrow then 1 else 2) * scale.1
    above := 2 * scale.1
    denominator := 4 * scale.2
    ends := significand % 2 = 0 }

/-- Whether `scaled` lies in the interval. -/
def Interval.holds (range : Interval) (scaled : Scaled) : Bool :=
  let factors : Nat × Nat :=
    if 0 ≤ scaled.exponent then (10 ^ scaled.exponent.toNat, 1)
    else (1, 10 ^ (-scaled.exponent).toNat)
  let point := scaled.digits * factors.1 * range.denominator
  let low := (range.value - range.below) * factors.2
  let high := (range.value + range.above) * factors.2
  if range.ends then low ≤ point && point ≤ high else low < point && point < high

/-- The neighbours of the value on the grid of multiples of `10 ^ exponent`: the
nearer one of those in the interval, and the even one of two that are as near. -/
def Interval.onGrid (range : Interval) (exponent : Int) : Option Scaled :=
  let unit : Nat × Nat :=
    if 0 ≤ exponent then (range.denominator * 10 ^ exponent.toNat, 1)
    else (range.denominator, 10 ^ (-exponent).toNat)
  let numerator := range.value * unit.2
  let low := numerator / unit.1
  let remainder := numerator % unit.1
  let lower : Scaled := ⟨low, exponent⟩
  let upper : Scaled := ⟨low + 1, exponent⟩
  match range.holds lower && low ≠ 0, range.holds upper with
  | true, true =>
      if 2 * remainder < unit.1 then some lower
      else if unit.1 < 2 * remainder then some upper
      else if low % 2 = 0 then some lower else some upper
  | true, false => some lower
  | false, true => some upper
  | false, false => none

/-- Removes trailing zeros from the digits. -/
def Scaled.trim : Nat → Scaled → Scaled
  | 0, scaled => scaled
  | count + 1, scaled =>
      if scaled.digits % 10 = 0 ∧ scaled.digits ≠ 0 then
        trim count ⟨scaled.digits / 10, scaled.exponent + 1⟩
      else scaled

/-- How many decimal digits a natural has. -/
def length (number : Nat) : Nat := (Nat.toDigits 10 number).length

/-- Tries finer and finer grids, beginning with that of the leading digit. -/
def search (range : Interval) : Nat → Int → Option Scaled
  | 0, _ => none
  | count + 1, exponent =>
      match range.onGrid exponent with
      | some scaled => some scaled
      | none => search range count (exponent - 1)

/-- The fewest digits that read back as a positive finite number. -/
def shortest (number : Binary64) : Scaled :=
  let range := interval number
  let whole := range.value / range.denominator
  let leading : Int :=
    if whole ≠ 0 then length whole
    else 1 - (length (range.denominator / range.value) : Int)
  ((search range 20 leading).getD ⟨0, 0⟩).trim 20

/-! ## Layout -/

/-- How digits are set: the powers of ten of a leading digit that are written
positionally, and what stands before an exponent. -/
structure Layout where
  lowest : Int
  highest : Int
  exponentMark : String
  plus : String

/-- A natural in decimal digits. -/
def natural (number : Nat) : String := String.ofList (Nat.toDigits 10 number)

/-- An integer in decimal digits, with a minus sign if it is negative. -/
def integer (number : Int) : String :=
  match number with
  | .ofNat value => natural value
  | .negSucc value => "-" ++ natural (value + 1)

/-- Sets digits positionally, with at least one digit on either side of the point. -/
def positional (digits : List Char) (exponent : Int) : List Char :=
  if 0 ≤ exponent then digits ++ List.replicate exponent.toNat '0' ++ ['.', '0']
  else
    let places := (-exponent).toNat
    if places < digits.length then
      digits.take (digits.length - places) ++ '.' :: digits.drop (digits.length - places)
    else ['0', '.'] ++ List.replicate (places - digits.length) '0' ++ digits

/-- Sets digits with one of them before the point, and an exponent. -/
def scientific (layout : Layout) (digits : List Char) (leading : Int) : List Char :=
  let mantissa :=
    match digits with
    | [] => ['0']
    | [digit] => [digit]
    | digit :: rest => digit :: '.' :: rest
  let sign := if 0 ≤ leading then layout.plus else ""
  mantissa ++ (layout.exponentMark ++ sign ++ integer leading).toList

/-- The text of a finite number. -/
def write (layout : Layout) (number : Binary64) : String :=
  let sign := if number.negative then ['-'] else []
  if number.isZero then String.ofList (sign ++ ['0', '.', '0'])
  else
    let scaled := shortest number
    let digits := Nat.toDigits 10 scaled.digits
    let leading := scaled.exponent + digits.length - 1
    let body :=
      if layout.lowest ≤ leading ∧ leading ≤ layout.highest then positional digits scaled.exponent
      else scientific layout digits leading
    String.ofList (sign ++ body)

/-! ## Reading -/

/-- Divides by `10 ^ 308` until the power of ten that remains is in the table of
exactly rounded powers, or nothing remains. -/
def scaleDown : Nat → Binary64 → Nat → Binary64
  | 0, number, _ => number
  | count + 1, number, exponent =>
      if exponent ≤ 308 then number.div (Binary64.powerOfTen exponent)
      else if number.isZero then number
      else scaleDown count (number.div (Binary64.powerOfTen 308)) (exponent - 308)

/-- The number read from a significand and a power of ten: the significand is
rounded, then multiplied or divided by the rounded power. A number too large
is refused. -/
def ofParts? (negative : Bool) (significand : Nat) (exponent : Int) : Option Binary64 :=
  let number := Binary64.ofInt significand
  let magnitude :=
    if exponent < 0 then some (scaleDown (exponent.natAbs / 308 + 1) number exponent.natAbs)
    else if exponent ≤ 308 then
      let product := number.mul (Binary64.powerOfTen exponent.toNat)
      if product.isFinite then some product else none
    else if number.isZero then some number
    else none
  magnitude.map fun number => if negative then number.negate else number

end Chronicle.Decimal
