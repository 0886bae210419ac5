import PlanLogic.Decimal.Rounding

/-!
# The shortest decimal that reads back

For a positive binary64 value, `shortest` finds the coarsest grid of multiples of a power of ten that has a
point among the numbers that round to the value, and on that grid the point closest to the value; of two
equally close points the even one.
-/

namespace PlanLogic
namespace Decimal

/-- A comparison of `digits · 10 ^ exponent` with `quarters · 2 ^ (unit - 2)` by cross-multiplication: the
two sides as whole numbers with the same positive factor. -/
def crossed (digits : Nat) (exponent : Int) (quarters : Nat) (unit : Int) : Nat × Nat :=
  (digits * (powerOfTen exponent.toNat * powerOfTwo (2 - unit).toNat),
   quarters * (powerOfTen (-exponent).toNat * powerOfTwo (unit - 2).toNat))

/-- Whether a decimal lies among the numbers that round to `mantissa · 2 ^ unit`.  The ends of that interval
belong to it exactly when the mantissa is even; below a power of two the interval is half as long. -/
def roundsTo (mantissa : Nat) (unit : Int) (value : Scaled) : Bool :=
  let below := if mantissa = fullMantissa ∧ leastExponent < unit then 1 else 2
  let low := crossed value.digits value.exponent (4 * mantissa - below) unit
  let high := crossed value.digits value.exponent (4 * mantissa + 2) unit
  if mantissa % 2 = 0 then
    decide (low.2 ≤ low.1) && decide (high.1 ≤ high.2)
  else
    decide (low.2 < low.1) && decide (high.1 < high.2)

/-- The multiple of `10 ^ exponent` just below `mantissa · 2 ^ unit`, counted in that power. -/
def gridFloor (mantissa : Nat) (unit : Int) (exponent : Int) : Nat :=
  (mantissa * (powerOfTwo unit.toNat * powerOfTen (-exponent).toNat)) /
    (powerOfTwo (-unit).toNat * powerOfTen exponent.toNat)

/-- Whether a value is closer to `floor + 1` than to `floor` on a grid, or as close and `floor` is odd. -/
def prefersAbove (mantissa : Nat) (unit : Int) (floor : Nat) (exponent : Int) : Bool :=
  let middle := crossed (2 * floor + 1) exponent (8 * mantissa) unit
  decide (middle.1 < middle.2) || (decide (middle.1 = middle.2) && decide (floor % 2 = 1))

/-- The best point of one grid, if a neighbour of the value on it rounds to the value. -/
def gridPoint? (mantissa : Nat) (unit : Int) (exponent : Int) : Option Scaled :=
  let floor := gridFloor mantissa unit exponent
  let below : Scaled := ⟨floor, exponent⟩
  let above : Scaled := ⟨floor + 1, exponent⟩
  match roundsTo mantissa unit below, roundsTo mantissa unit above with
  | true, true => some (if prefersAbove mantissa unit floor exponent then above else below)
  | true, false => some below
  | false, true => some above
  | false, false => none

/-- The value itself as a decimal. -/
def exact (mantissa : Nat) (unit : Int) : Scaled :=
  if 0 ≤ unit then
    ⟨mantissa * powerOfTwo unit.toNat, 0⟩
  else
    ⟨mantissa * Nat.pow 5 (-unit).toNat, unit⟩

/-- Searches ever finer grids, at most `steps` of them. -/
def searchGrids (mantissa : Nat) (unit : Int) : Nat → Int → Scaled
  | 0, _ => exact mantissa unit
  | steps + 1, exponent =>
    match gridPoint? mantissa unit exponent with
    | some value => value
    | none => searchGrids mantissa unit steps (exponent - 1)

/-- A power of ten above the value: `30103 / 100000` is just above the logarithm of two to base ten, and the
value has at most `log2 mantissa + unit + 1` binary places. -/
def coarsestExponent (mantissa : Nat) (unit : Int) : Int :=
  ((mantissa.log2 : Int) + unit + 1) * 30103 / 100000 + 1

/-- The shortest decimal that reads back as the positive value `mantissa · 2 ^ unit`. -/
def shortest (mantissa : Nat) (unit : Int) : Scaled :=
  searchGrids mantissa unit 20 (coarsestExponent mantissa unit)

end Decimal
end PlanLogic
