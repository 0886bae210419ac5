import PlanLogic.Decimal.Shortest
import PlanLogic.Proofs.Decimal.Bits
import Mathlib.Algebra.Order.Field.Power
import Mathlib.Tactic.FieldSimp
import Mathlib.Tactic.Linarith
import Mathlib.Tactic.Positivity
import Mathlib.Tactic.Ring

/-!
# Decimals as rational numbers

The interval test and the grid search compare a decimal with a binary value by cross-multiplication.  Here
both sides become rational numbers: the test says that the decimal lies in the interval of the numbers that
round to the binary value, and the decimal that the search ends with lies in it.
-/

namespace PlanLogic
namespace Decimal

/-- The number that a decimal stands for. -/
def Scaled.value (s : Scaled) : ℚ :=
  s.digits * 10 ^ s.exponent

/-- How far below a binary value its interval goes, in quarters of a unit. -/
def gapBelow (mantissa : Nat) (unit : Int) : Nat :=
  if mantissa = fullMantissa ∧ leastExponent < unit then 1 else 2

/-- The numbers that round to `mantissa · 2 ^ unit`; an odd mantissa leaves the two ends to its neighbours. -/
structure InInterval (mantissa : Nat) (unit : Int) (value : ℚ) : Prop where
  low : (4 * mantissa - gapBelow mantissa unit) * 2 ^ (unit - 2) ≤ value
  high : value ≤ (4 * mantissa + 2) * 2 ^ (unit - 2)
  inside_of_odd : mantissa % 2 = 1 →
    (4 * mantissa - gapBelow mantissa unit) * 2 ^ (unit - 2) < value ∧
      value < (4 * mantissa + 2) * 2 ^ (unit - 2)

theorem gapBelow_le (mantissa : Nat) (unit : Int) : gapBelow mantissa unit ≤ 2 := by
  rw [gapBelow]
  split <;> omega

theorem gapBelow_pos (mantissa : Nat) (unit : Int) : 0 < gapBelow mantissa unit := by
  rw [gapBelow]
  split <;> omega

theorem powerOfTwo_cast (n : Nat) : (powerOfTwo n : ℚ) = 2 ^ n := by
  show ((2 ^ n : Nat) : ℚ) = 2 ^ n
  rw [Nat.cast_pow, Nat.cast_ofNat]

theorem powerOfTen_cast (n : Nat) : (powerOfTen n : ℚ) = 10 ^ n := by
  show ((10 ^ n : Nat) : ℚ) = 10 ^ n
  rw [Nat.cast_pow, Nat.cast_ofNat]

/-- An integer power with its negative part moved to the other side. -/
theorem zpow_mul_pow_neg {base : ℚ} (hBase : base ≠ 0) (exponent : Int) :
    base ^ exponent * base ^ (-exponent).toNat = base ^ exponent.toNat := by
  rw [← zpow_natCast, ← zpow_natCast, ← zpow_add₀ hBase]
  congr 1
  omega

/-! ## Cross-multiplication -/

/-- The factor that makes both sides of a comparison whole. -/
def crossFactor (exponent unit : Int) : ℚ :=
  10 ^ (-exponent).toNat * 2 ^ (2 - unit).toNat

theorem crossFactor_pos (exponent unit : Int) : 0 < crossFactor exponent unit := by
  unfold crossFactor
  positivity

theorem crossed_fst (digits : Nat) (exponent : Int) (quarters : Nat) (unit : Int) :
    ((crossed digits exponent quarters unit).1 : ℚ) =
      digits * 10 ^ exponent * crossFactor exponent unit := by
  have hTen := zpow_mul_pow_neg (show (10 : ℚ) ≠ 0 by norm_num) exponent
  rw [crossed, crossFactor, Nat.cast_mul, Nat.cast_mul, powerOfTwo_cast, powerOfTen_cast, ← hTen]
  ring

theorem crossed_snd (digits : Nat) (exponent : Int) (quarters : Nat) (unit : Int) :
    ((crossed digits exponent quarters unit).2 : ℚ) =
      quarters * 2 ^ (unit - 2) * crossFactor exponent unit := by
  have hTwo := zpow_mul_pow_neg (show (2 : ℚ) ≠ 0 by norm_num) (unit - 2)
  rw [neg_sub] at hTwo
  rw [crossed, crossFactor, Nat.cast_mul, Nat.cast_mul, powerOfTwo_cast, powerOfTen_cast, ← hTwo]
  ring

theorem crossed_le_iff (s : Scaled) (quarters : Nat) (unit : Int) :
    (crossed s.digits s.exponent quarters unit).1 ≤ (crossed s.digits s.exponent quarters unit).2 ↔
      s.value ≤ quarters * 2 ^ (unit - 2) := by
  rw [← Nat.cast_le (α := ℚ), crossed_fst, crossed_snd, Scaled.value]
  exact mul_le_mul_iff_left₀ (crossFactor_pos _ _)

theorem le_crossed_iff (s : Scaled) (quarters : Nat) (unit : Int) :
    (crossed s.digits s.exponent quarters unit).2 ≤ (crossed s.digits s.exponent quarters unit).1 ↔
      quarters * 2 ^ (unit - 2) ≤ s.value := by
  rw [← Nat.cast_le (α := ℚ), crossed_fst, crossed_snd, Scaled.value]
  exact mul_le_mul_iff_left₀ (crossFactor_pos _ _)

theorem roundsTo_eq (mantissa : Nat) (unit : Int) (s : Scaled) :
    roundsTo mantissa unit s =
      if mantissa % 2 = 0 then
        decide ((crossed s.digits s.exponent (4 * mantissa - gapBelow mantissa unit) unit).2 ≤
            (crossed s.digits s.exponent (4 * mantissa - gapBelow mantissa unit) unit).1) &&
          decide ((crossed s.digits s.exponent (4 * mantissa + 2) unit).1 ≤
            (crossed s.digits s.exponent (4 * mantissa + 2) unit).2)
      else
        decide ((crossed s.digits s.exponent (4 * mantissa - gapBelow mantissa unit) unit).2 <
            (crossed s.digits s.exponent (4 * mantissa - gapBelow mantissa unit) unit).1) &&
          decide ((crossed s.digits s.exponent (4 * mantissa + 2) unit).1 <
            (crossed s.digits s.exponent (4 * mantissa + 2) unit).2) :=
  rfl

/-- The interval test says that the decimal lies in the interval. -/
theorem inInterval_of_roundsTo {mantissa : Nat} {unit : Int} {s : Scaled} (hMantissa : 0 < mantissa)
    (hRounds : roundsTo mantissa unit s = true) : InInterval mantissa unit s.value := by
  have hGap := gapBelow_le mantissa unit
  have hLow : ((4 * mantissa - gapBelow mantissa unit : Nat) : ℚ) =
      4 * mantissa - gapBelow mantissa unit := by
    rw [Nat.cast_sub (by omega), Nat.cast_mul, Nat.cast_ofNat]
  have hHigh : ((4 * mantissa + 2 : Nat) : ℚ) = 4 * mantissa + 2 := by
    rw [Nat.cast_add, Nat.cast_mul, Nat.cast_ofNat, Nat.cast_ofNat]
  have hLe := crossed_le_iff s (4 * mantissa + 2) unit
  have hGe := le_crossed_iff s (4 * mantissa - gapBelow mantissa unit) unit
  have hLt := (le_crossed_iff s (4 * mantissa + 2) unit).not
  have hGt := (crossed_le_iff s (4 * mantissa - gapBelow mantissa unit) unit).not
  rw [hLow] at hGe hGt
  rw [hHigh] at hLe hLt
  rw [not_le, not_le] at hLt hGt
  rw [roundsTo_eq] at hRounds
  split at hRounds
  · next hEven =>
      rw [Bool.and_eq_true, decide_eq_true_eq, decide_eq_true_eq] at hRounds
      exact ⟨hGe.mp hRounds.1, hLe.mp hRounds.2, fun hOdd => absurd hEven (by omega)⟩
  · rw [Bool.and_eq_true, decide_eq_true_eq, decide_eq_true_eq] at hRounds
    have hInside := And.intro (hGt.mp hRounds.1) (hLt.mp hRounds.2)
    exact ⟨hInside.1.le, hInside.2.le, fun _ => hInside⟩

/-! ## The search -/

theorem roundsTo_of_gridPoint? {mantissa : Nat} {unit exponent : Int} {s : Scaled}
    (hPoint : gridPoint? mantissa unit exponent = some s) : roundsTo mantissa unit s = true := by
  unfold gridPoint? at hPoint
  simp only at hPoint
  split at hPoint
  · next hBelow hAbove =>
      obtain rfl := Option.some.inj hPoint
      split
      · exact hAbove
      · exact hBelow
  · next hBelow hAbove =>
      obtain rfl := Option.some.inj hPoint
      exact hBelow
  · next hBelow hAbove =>
      obtain rfl := Option.some.inj hPoint
      exact hAbove
  · simp at hPoint

/-- The exact decimal has the binary value. -/
theorem value_exact (mantissa : Nat) (unit : Int) : (exact mantissa unit).value = mantissa * 2 ^ unit := by
  unfold exact
  split
  · next hUnit =>
      rw [Scaled.value, Nat.cast_mul, powerOfTwo_cast, zpow_zero, mul_one, ← zpow_natCast,
        Int.toNat_of_nonneg hUnit]
  · next hUnit =>
      have hFive : ((Nat.pow 5 (-unit).toNat : Nat) : ℚ) = 5 ^ (-unit) := by
        show ((5 ^ (-unit).toNat : Nat) : ℚ) = _
        rw [Nat.cast_pow, Nat.cast_ofNat, ← zpow_natCast, Int.toNat_of_nonneg (by omega)]
      have hTen : (10 : ℚ) ^ unit = 5 ^ unit * 2 ^ unit := by
        rw [← mul_zpow]
        norm_num
      rw [Scaled.value, Nat.cast_mul, hFive, hTen, zpow_neg]
      field_simp

theorem inInterval_self (mantissa : Nat) (unit : Int) : InInterval mantissa unit (mantissa * 2 ^ unit) := by
  have hUnit : (2 : ℚ) ^ unit = 4 * 2 ^ (unit - 2) := by
    rw [zpow_sub₀ (by norm_num)]
    ring
  have hPos : (0 : ℚ) < 2 ^ (unit - 2) := by positivity
  have hGap : (0 : ℚ) < gapBelow mantissa unit := by exact_mod_cast gapBelow_pos mantissa unit
  have hLow : (4 * mantissa - gapBelow mantissa unit) * 2 ^ (unit - 2) < (mantissa : ℚ) * 2 ^ unit := by
    rw [hUnit]
    nlinarith
  have hHigh : (mantissa : ℚ) * 2 ^ unit < (4 * mantissa + 2) * 2 ^ (unit - 2) := by
    rw [hUnit]
    nlinarith
  exact ⟨hLow.le, hHigh.le, fun _ => ⟨hLow, hHigh⟩⟩

theorem inInterval_searchGrids {mantissa : Nat} (hMantissa : 0 < mantissa) (unit : Int) (steps : Nat)
    (exponent : Int) : InInterval mantissa unit (searchGrids mantissa unit steps exponent).value := by
  induction steps generalizing exponent with
  | zero =>
      rw [searchGrids, value_exact]
      exact inInterval_self mantissa unit
  | succ steps ih =>
      rw [searchGrids]
      split
      · next s hPoint => exact inInterval_of_roundsTo hMantissa (roundsTo_of_gridPoint? hPoint)
      · exact ih (exponent - 1)

/-- The shortest decimal of a binary value lies in the interval of the value. -/
theorem inInterval_shortest {mantissa : Nat} (hMantissa : 0 < mantissa) (unit : Int) :
    InInterval mantissa unit (shortest mantissa unit).value :=
  inInterval_searchGrids hMantissa unit _ _

end Decimal
end PlanLogic
