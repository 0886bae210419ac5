import PlanLogic.Decimal.Binary64

/-!
# Rounding a decimal to binary64

`nearest` gives the binary64 value closest to `digits · 10 ^ exponent`; a value half-way between two
neighbours goes to the one with the even mantissa.  The exponent of the result is chosen first, so that there
is a single rounding.
-/

namespace PlanLogic
namespace Decimal

/-- A decimal number `digits · 10 ^ exponent`. -/
structure Scaled where
  digits : Nat
  exponent : Int
deriving Repr, DecidableEq

/-- The whole number closest to a quotient; a half goes to the even neighbour. -/
def roundQuotient (numerator denominator : Nat) : Nat :=
  let whole := numerator / denominator
  let twice := 2 * (numerator % denominator)
  if twice < denominator then
    whole
  else if denominator < twice then
    whole + 1
  else
    whole + whole % 2

/-- The numerator and denominator of `numerator / denominator` divided by `2 ^ exponent`. -/
def inUnits (numerator denominator : Nat) (exponent : Int) : Nat × Nat :=
  if 0 ≤ exponent then
    (numerator, denominator * powerOfTwo exponent.toNat)
  else
    (numerator * powerOfTwo (-exponent).toNat, denominator)

/-- The exponent of the mantissa unit for a positive quotient, before it is rounded. -/
def unitExponent (numerator denominator : Nat) : Int :=
  -- The quotient lies between `2 ^ (low + 52)` and `2 ^ (low + 54)`, so one of two exponents fits.
  let low : Int := numerator.log2 - denominator.log2 - 53
  let start := max low leastExponent
  let scaled := inUnits numerator denominator start
  if scaled.1 / scaled.2 < 2 * fullMantissa then start else start + 1

/-- The binary64 value closest to a positive quotient. -/
def nearestQuotient (negative : Bool) (numerator denominator : Nat) : Binary64 :=
  let exponent := unitExponent numerator denominator
  let scaled := inUnits numerator denominator exponent
  let mantissa := roundQuotient scaled.1 scaled.2
  -- Rounding up may need one more bit than the mantissa has.
  let carried :=
    if mantissa = 2 * fullMantissa then (fullMantissa, exponent + 1) else (mantissa, exponent)
  if largestExponent < carried.2 then
    .infinite negative
  else
    .finite negative carried.1 carried.2

/-- The number of decimal digits of a number; zero has none. -/
def digitCount (n : Nat) : Nat :=
  if n = 0 then 0 else digitCount (n / 10) + 1
termination_by n

/-- The binary64 value closest to a decimal number with a sign.  Numbers of at least `10 ^ 310` and below
`10 ^ (-326)` are beyond both ends of the range, so no large power is computed for them. -/
def nearest (negative : Bool) (value : Scaled) : Binary64 :=
  if value.digits = 0 then
    .finite negative 0 leastExponent
  else
    let magnitude : Int := digitCount value.digits + value.exponent
    if 310 < magnitude then
      .infinite negative
    else if magnitude < -326 then
      .finite negative 0 leastExponent
    else if 0 ≤ value.exponent then
      nearestQuotient negative (value.digits * powerOfTen value.exponent.toNat) 1
    else
      nearestQuotient negative value.digits (powerOfTen (-value.exponent).toNat)

end Decimal
end PlanLogic
