import Chronicle.Number.Power

/-!
# Double-precision numbers

A number is its 64 bits, so two numbers are equal when their bits are: zero and
negative zero differ, and not-a-number equals itself. Arithmetic is exact on
naturals and rounds once, to the nearest number, a half to the even neighbour.
-/

namespace Chronicle

/-- The bits of a double-precision number. -/
structure Binary64 where
  bits : UInt64
  deriving DecidableEq, Inhabited

namespace Binary64

/-- The sign bit. -/
def negative (number : Binary64) : Bool := 2 ^ 63 ≤ number.bits.toNat

/-- The eleven bits of the exponent. -/
def exponentField (number : Binary64) : Nat := number.bits.toNat / 2 ^ 52 % 2 ^ 11

/-- The fifty-two bits of the fraction. -/
def fraction (number : Binary64) : Nat := number.bits.toNat % 2 ^ 52

/-- Neither infinite nor not-a-number. -/
def isFinite (number : Binary64) : Bool := number.exponentField < 2047

/-- The whole number `m` of a finite value `m * 2 ^ e`. -/
def significand (number : Binary64) : Nat :=
  if number.exponentField = 0 then number.fraction else 2 ^ 52 + number.fraction

/-- The exponent `e` of a finite value `m * 2 ^ e`. -/
def exponent (number : Binary64) : Int := (max number.exponentField 1 : Nat) - 1075

/-- Zero of either sign. -/
def isZero (number : Binary64) : Bool := number.bits.toNat % 2 ^ 63 = 0

/-- The number with the sign turned round. -/
def negate (number : Binary64) : Binary64 :=
  ⟨UInt64.ofNat ((number.bits.toNat + 2 ^ 63) % 2 ^ 64)⟩

/-- Gives a magnitude a sign. -/
def withSign (negative : Bool) (magnitude : Nat) : Binary64 :=
  ⟨UInt64.ofNat (if negative then 2 ^ 63 + magnitude else magnitude)⟩

/-- The bits of positive infinity. -/
def infinityMagnitude : Nat := 2047 * 2 ^ 52

/-! ## Rounding -/

/-- The quotient rounded to the nearest natural, a half to the even one. -/
def roundQuotient (numerator denominator : Nat) : Nat :=
  let quotient := numerator / denominator
  let remainder := numerator % denominator
  if 2 * remainder < denominator then quotient
  else if denominator < 2 * remainder then quotient + 1
  else quotient + quotient % 2

/-- The whole part of the binary logarithm of a quotient of positive naturals. -/
def logQuotient (numerator denominator : Nat) : Int :=
  let guess : Int := (Nat.log2 numerator : Int) - Nat.log2 denominator
  let reached :=
    if 0 ≤ guess then denominator * 2 ^ guess.toNat ≤ numerator
    else denominator ≤ numerator * 2 ^ (-guess).toNat
  if reached then guess else guess - 1

/-- The number nearest to a quotient; infinite if it is too large. -/
def ofQuotient (negative : Bool) (numerator denominator : Nat) : Binary64 :=
  if numerator = 0 then withSign negative 0
  else
    let exponent := max (logQuotient numerator denominator - 52) (-1074)
    let significand :=
      if 0 ≤ exponent then roundQuotient numerator (denominator * 2 ^ exponent.toNat)
      else roundQuotient (numerator * 2 ^ (-exponent).toNat) denominator
    withSign negative (min ((exponent + 1074).toNat * 2 ^ 52 + significand) infinityMagnitude)

/-- The number nearest to an integer. -/
def ofInt (value : Int) : Binary64 := ofQuotient (value < 0) value.natAbs 1

/-- A finite magnitude as numerator and denominator. -/
def quotient (number : Binary64) : Nat × Nat :=
  if 0 ≤ number.exponent then (number.significand * 2 ^ number.exponent.toNat, 1)
  else (number.significand, 2 ^ (-number.exponent).toNat)

/-- The product of two finite numbers. -/
def mul (first second : Binary64) : Binary64 :=
  ofQuotient (first.negative != second.negative) (first.quotient.1 * second.quotient.1)
    (first.quotient.2 * second.quotient.2)

/-- The quotient of two finite numbers, the second not zero. -/
def div (first second : Binary64) : Binary64 :=
  ofQuotient (first.negative != second.negative) (first.quotient.1 * second.quotient.2)
    (first.quotient.2 * second.quotient.1)

/-- The number nearest to a power of ten. -/
def powerOfTen (exponent : Nat) : Binary64 := ofQuotient false (10 ^ exponent) 1

/-- Widens the bits of a single-precision number; what is not a number stays so,
with its payload and marked quiet. -/
def ofBinary32 (bits : Nat) : Binary64 :=
  let negative := decide (2 ^ 31 ≤ bits)
  let exponentField := bits / 2 ^ 23 % 2 ^ 8
  let fraction := bits % 2 ^ 23
  if exponentField = 255 then
    if fraction = 0 then withSign negative infinityMagnitude
    else
      let payload := fraction * 2 ^ 29
      withSign negative (infinityMagnitude + (2 ^ 51 ||| payload))
  else if exponentField = 0 then ofQuotient negative fraction (2 ^ 149)
  else
    ofQuotient negative ((2 ^ 23 + fraction) * 2 ^ exponentField) (2 ^ 150)

end Binary64

end Chronicle
