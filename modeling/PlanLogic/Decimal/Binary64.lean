import PlanLogic.Decimal.Power

/-!
# Binary64 values taken apart

A finite binary64 value is `mantissa · 2 ^ exponent` with a sign.  The mantissa has at most 53 bits, and it
has exactly 53 unless the exponent is the least one.  Decoding and encoding work on the bit pattern; neither
looks at how arithmetic on such values is done.
-/

namespace PlanLogic
namespace Decimal

/-- The number of mantissa bits that are stored. -/
def storedBits : Nat := 52

/-- The least mantissa that has all 53 bits. -/
def fullMantissa : Nat :=
  powerOfTwo storedBits

/-- The exponent field of infinities and not-a-number. -/
def specialField : Nat := 2047

/-- The least exponent of a mantissa unit. -/
def leastExponent : Int := -1074

/-- The largest exponent of a mantissa unit. -/
def largestExponent : Int := 971

/-- A binary64 value as sign, mantissa and exponent. -/
inductive Binary64 where
  | notANumber
  | infinite (negative : Bool)
  | finite (negative : Bool) (mantissa : Nat) (exponent : Int)
deriving Repr, DecidableEq

namespace Binary64

/-- The value with a given bit pattern. -/
def ofBits (bits : Nat) : Binary64 :=
  let negative := decide (bits / powerOfTwo 63 % 2 = 1)
  let field := bits / fullMantissa % powerOfTwo 11
  let fraction := bits % fullMantissa
  if field = specialField then
    if fraction = 0 then .infinite negative else .notANumber
  else if field = 0 then
    .finite negative fraction leastExponent
  else
    .finite negative (fullMantissa + fraction) (leastExponent + ((field : Int) - 1))

/-- The bit of the sign. -/
def signBit (negative : Bool) : Nat :=
  if negative then powerOfTwo 63 else 0

/-- The bit pattern of a value. -/
def toBits : Binary64 → Nat
  | .notANumber => specialField * fullMantissa + fullMantissa / 2
  | .infinite negative => signBit negative + specialField * fullMantissa
  | .finite negative mantissa exponent =>
    if mantissa < fullMantissa then
      signBit negative + mantissa
    else
      signBit negative + (exponent - leastExponent).toNat * fullMantissa + mantissa

/-- The parts of a floating-point number. -/
def ofFloat (x : Float) : Binary64 :=
  ofBits x.toBits.toNat

/-- The floating-point number with the given parts. -/
def toFloat (x : Binary64) : Float :=
  Float.ofBits (UInt64.ofNat x.toBits)

end Binary64
end Decimal
end PlanLogic
