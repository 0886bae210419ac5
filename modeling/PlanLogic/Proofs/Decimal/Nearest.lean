import PlanLogic.Proofs.Decimal.Value
import Mathlib.Tactic.LinearCombination
import Mathlib.Tactic.NormNum

/-!
# Rounding a decimal from the interval of a binary value

Every decimal in the interval of a binary value is rounded to that value.  Rounding first chooses a unit by
the size of the decimal; there is only one unit of that kind, and it is the unit of the value, or the one
below it if the decimal is just below a power of two.
-/

namespace PlanLogic
namespace Decimal

/-! ## The closest whole number -/

/-- Rounding a quotient, told by comparing twice the quotient with the neighbours of twice the result. -/
theorem roundQuotient_eq {numerator denominator whole : Nat} (hDenominator : 0 < denominator)
    (hLow : 2 * (whole * denominator) ≤ 2 * numerator + denominator)
    (hHigh : 2 * numerator ≤ 2 * (whole * denominator) + denominator)
    (hOdd : whole % 2 = 1 → 2 * (whole * denominator) < 2 * numerator + denominator ∧
      2 * numerator < 2 * (whole * denominator) + denominator) :
    roundQuotient numerator denominator = whole := by
  have hSplit := Nat.div_add_mod numerator denominator
  have hRest := Nat.mod_lt numerator hDenominator
  have hSplit' : numerator / denominator * denominator + numerator % denominator = numerator := by
    rw [Nat.mul_comm]
    exact hSplit
  -- Within half a denominator of the quotient there are two whole numbers at most.
  have hWhole : whole = numerator / denominator ∨ whole = numerator / denominator + 1 := by
    have hAbove : numerator / denominator ≤ whole := by
      by_contra hLess
      have hMul := Nat.mul_le_mul_right denominator (Nat.lt_of_not_le hLess)
      rw [Nat.succ_mul] at hMul
      omega
    have hBelow : whole ≤ numerator / denominator + 1 := by
      by_contra hLess
      have hMul := Nat.mul_le_mul_right denominator (Nat.lt_of_not_le hLess)
      rw [Nat.succ_mul, Nat.succ_mul] at hMul
      omega
    omega
  unfold roundQuotient
  simp only
  rcases hWhole with hSame | hNext
  · rw [← hSame] at hSplit' ⊢
    split
    · rfl
    split
    · omega
    · omega
  · have hMul : whole * denominator = numerator / denominator * denominator + denominator := by
      rw [hNext, Nat.succ_mul]
    split
    · omega
    split
    · exact hNext.symm
    · omega

/-- Rounding a value that is counted in some unit. -/
theorem roundQuotient_of_value {numerator denominator whole : Nat} {value unit : ℚ}
    (hDenominator : 0 < denominator) (hUnit : 0 < unit) (hSame : numerator * unit = value * denominator)
    (hLow : (2 * whole - 1) * unit ≤ 2 * value) (hHigh : 2 * value ≤ (2 * whole + 1) * unit)
    (hOdd : whole % 2 = 1 →
      (2 * whole - 1) * unit < 2 * value ∧ 2 * value < (2 * whole + 1) * unit) :
    roundQuotient numerator denominator = whole := by
  have hPos : (0 : ℚ) < denominator := by exact_mod_cast hDenominator
  -- Both sides of each comparison are multiplied by the unit.
  have hScaleLow : ((2 * (whole * denominator) : ℚ) - (2 * numerator + denominator)) * unit =
      ((2 * whole - 1) * unit - 2 * value) * denominator := by
    linear_combination -2 * hSame
  have hScaleHigh : ((2 * numerator : ℚ) - (2 * (whole * denominator) + denominator)) * unit =
      (2 * value - (2 * whole + 1) * unit) * denominator := by
    linear_combination 2 * hSame
  refine roundQuotient_eq hDenominator ?_ ?_ fun hWhole => ⟨?_, ?_⟩
  · have hLess : ((2 * (whole * denominator) : ℚ) - (2 * numerator + denominator)) * unit ≤ 0 := by
      rw [hScaleLow]
      exact mul_nonpos_of_nonpos_of_nonneg (by linarith) hPos.le
    have hDiff := nonpos_of_mul_nonpos_left hLess hUnit
    exact_mod_cast sub_nonpos.mp hDiff
  · have hLess : ((2 * numerator : ℚ) - (2 * (whole * denominator) + denominator)) * unit ≤ 0 := by
      rw [hScaleHigh]
      exact mul_nonpos_of_nonpos_of_nonneg (by linarith) hPos.le
    have hDiff := nonpos_of_mul_nonpos_left hLess hUnit
    exact_mod_cast sub_nonpos.mp hDiff
  · have hLess : ((2 * (whole * denominator) : ℚ) - (2 * numerator + denominator)) * unit < 0 := by
      rw [hScaleLow]
      exact mul_neg_of_neg_of_pos (by linarith [(hOdd hWhole).1]) hPos
    have hDiff := neg_of_mul_neg_left hLess hUnit.le
    exact_mod_cast sub_neg.mp hDiff
  · have hLess : ((2 * numerator : ℚ) - (2 * (whole * denominator) + denominator)) * unit < 0 := by
      rw [hScaleHigh]
      exact mul_neg_of_neg_of_pos (by linarith [(hOdd hWhole).2]) hPos
    have hDiff := neg_of_mul_neg_left hLess hUnit.le
    exact_mod_cast sub_neg.mp hDiff

/-! ## The unit of a rounding -/

/-- The unit in which a value is rounded: the value has at most 53 bits in front of the point, and fewer only
at the least exponent. -/
structure IsUnit (value : ℚ) (unit : Int) : Prop where
  least_le : -1074 ≤ unit
  value_lt : value < 2 ^ 53 * 2 ^ unit
  full_of_ne : unit ≠ -1074 → 2 ^ 52 * 2 ^ unit ≤ value

theorem two_zpow_le {low high : Int} (hLess : low < high) : (2 : ℚ) * 2 ^ low ≤ 2 ^ high := by
  have hStep : (2 : ℚ) * 2 ^ low = 2 ^ (low + 1) := by
    rw [zpow_add₀ (by norm_num), zpow_one, mul_comm]
  rw [hStep]
  exact zpow_le_zpow_right₀ (by norm_num) hLess

/-- A value has one unit. -/
theorem IsUnit.unique {value : ℚ} {first second : Int} (hFirst : IsUnit value first)
    (hSecond : IsUnit value second) : first = second := by
  have hNot {low high : Int} (hLow : IsUnit value low) (hHigh : IsUnit value high) : ¬ low < high := by
    intro hLess
    have hFull := hHigh.full_of_ne (by have := hLow.least_le; omega)
    have hValue := hLow.value_lt
    have hPowers := two_zpow_le hLess
    linarith
  have hNotFirst := hNot hFirst hSecond
  have hNotSecond := hNot hSecond hFirst
  omega

theorem inUnits_pos (numerator : Nat) {denominator : Nat} (hDenominator : 0 < denominator) (unit : Int) :
    0 < (inUnits numerator denominator unit).2 := by
  unfold inUnits
  split
  · exact Nat.mul_pos hDenominator (powerOfTwo_pos _)
  · exact hDenominator

/-- Counting in units divides by the unit. -/
theorem inUnits_value (numerator : Nat) {denominator : Nat} (hDenominator : 0 < denominator) (unit : Int) :
    ((inUnits numerator denominator unit).1 : ℚ) * 2 ^ unit =
      numerator / denominator * (inUnits numerator denominator unit).2 := by
  have hPos : (0 : ℚ) < denominator := by exact_mod_cast hDenominator
  unfold inUnits
  split
  · next hUnit =>
      rw [Nat.cast_mul, powerOfTwo_cast, ← zpow_natCast, Int.toNat_of_nonneg hUnit]
      field_simp
  · next hUnit =>
      rw [Nat.cast_mul, powerOfTwo_cast, ← zpow_natCast, Int.toNat_of_nonneg (by omega), zpow_neg]
      field_simp

theorem log2_bounds {n : Nat} (hn : 0 < n) : (2 : ℚ) ^ n.log2 ≤ n ∧ (n : ℚ) < 2 * 2 ^ n.log2 := by
  have hLow := Nat.log2_self_le (Nat.ne_of_gt hn)
  have hHigh := Nat.lt_log2_self (n := n)
  rw [Nat.pow_succ] at hHigh
  constructor
  · exact_mod_cast hLow
  · rw [mul_comm]
    exact_mod_cast hHigh

/-- The logarithms of the two sides of a quotient give its size up to a factor of two. -/
theorem quotient_bounds {numerator denominator : Nat} (hNumerator : 0 < numerator)
    (hDenominator : 0 < denominator) :
    (2 : ℚ) ^ 52 * 2 ^ ((numerator.log2 : Int) - denominator.log2 - 53) ≤ numerator / denominator ∧
      (numerator / denominator : ℚ) < 2 ^ 54 * 2 ^ ((numerator.log2 : Int) - denominator.log2 - 53) := by
  have hPos : (0 : ℚ) < denominator := by exact_mod_cast hDenominator
  obtain ⟨hLowN, hHighN⟩ := log2_bounds hNumerator
  obtain ⟨hLowD, hHighD⟩ := log2_bounds hDenominator
  have hPower : (2 : ℚ) ^ ((numerator.log2 : Int) - denominator.log2 - 53) =
      2 ^ numerator.log2 / 2 ^ denominator.log2 / 2 ^ 53 := by
    rw [zpow_sub₀ (by norm_num), zpow_sub₀ (by norm_num), zpow_natCast, zpow_natCast]
    norm_num
  have hPowerN : (0 : ℚ) < 2 ^ numerator.log2 := by positivity
  have hPowerD : (0 : ℚ) < 2 ^ denominator.log2 := by positivity
  rw [hPower]
  constructor
  · rw [le_div_iff₀ hPos]
    calc (2 : ℚ) ^ 52 * (2 ^ numerator.log2 / 2 ^ denominator.log2 / 2 ^ 53) * denominator
        = 2 ^ numerator.log2 * (denominator / (2 * 2 ^ denominator.log2)) := by
          field_simp
      _ ≤ 2 ^ numerator.log2 * 1 := by
          apply mul_le_mul_of_nonneg_left _ hPowerN.le
          rw [div_le_one (by positivity)]
          exact hHighD.le
      _ ≤ numerator := by rw [mul_one]; exact hLowN
  · rw [div_lt_iff₀ hPos]
    calc (numerator : ℚ) < 2 * 2 ^ numerator.log2 := hHighN
      _ ≤ 2 * 2 ^ numerator.log2 * (denominator / 2 ^ denominator.log2) := by
          apply le_mul_of_one_le_right (by positivity)
          rw [one_le_div hPowerD]
          exact hLowD
      _ = 2 ^ 54 * (2 ^ numerator.log2 / 2 ^ denominator.log2 / 2 ^ 53) * denominator := by
          field_simp

/-- The unit chosen for a quotient is its unit. -/
theorem isUnit_unitExponent {numerator denominator : Nat} (hNumerator : 0 < numerator)
    (hDenominator : 0 < denominator) :
    IsUnit (numerator / denominator) (unitExponent numerator denominator) := by
  obtain ⟨hLow, hHigh⟩ := quotient_bounds hNumerator hDenominator
  unfold unitExponent
  simp only
  generalize hSize : (numerator.log2 : Int) - denominator.log2 - 53 = low at hLow hHigh ⊢
  generalize hStart : max low leastExponent = start
  have hLeast : leastExponent = -1074 := rfl
  have hStartLe : -1074 ≤ start := by omega
  -- The count of units has at most 53 bits if and only if the quotient lies below that many units.
  have hBelow : (inUnits numerator denominator start).1 / (inUnits numerator denominator start).2 <
      2 * fullMantissa ↔ (numerator / denominator : ℚ) < 2 ^ 53 * 2 ^ start := by
    have hUnits := inUnits_value numerator hDenominator start
    have hPos : (0 : ℚ) < (inUnits numerator denominator start).2 := by
      exact_mod_cast inUnits_pos numerator hDenominator start
    have hPower : (0 : ℚ) < 2 ^ start := by positivity
    have hFull : ((2 * fullMantissa : Nat) : ℚ) = 2 ^ 53 := by
      rw [fullMantissa_eq]
      norm_num
    rw [Nat.div_lt_iff_lt_mul (inUnits_pos numerator hDenominator start), ← Nat.cast_lt (α := ℚ), Nat.cast_mul, hFull,
      ← mul_lt_mul_iff_left₀ hPower, hUnits, ← mul_lt_mul_iff_left₀ hPos (b := (numerator / denominator : ℚ))]
    ring_nf
  split
  · next hFits =>
      refine ⟨hStartLe, hBelow.mp hFits, fun hOther => ?_⟩
      rwa [show start = low by omega]
  · next hExceeds =>
      -- One step up is enough, as the first unit was wrong by a factor of two at most.
      have hValue := not_lt.mp (hBelow.not.mp hExceeds)
      have hStep : (2 : ℚ) ^ (start + 1) = 2 * 2 ^ start := by
        rw [zpow_add₀ (by norm_num), zpow_one, mul_comm]
      refine ⟨by omega, ?_, fun _ => by rw [hStep]; linarith⟩
      have hPowers : (2 : ℚ) ^ low ≤ 2 ^ start := zpow_le_zpow_right₀ (by norm_num) (by omega)
      rw [hStep]
      linarith

/-! ## Rounding from an interval -/

theorem two_zpow_half (unit : Int) : (2 : ℚ) ^ unit = 2 * 2 ^ (unit - 1) := by
  rw [zpow_sub₀ (by norm_num)]
  ring

theorem two_zpow_quarter (unit : Int) : (2 : ℚ) ^ unit = 4 * 2 ^ (unit - 2) := by
  rw [zpow_sub₀ (by norm_num)]
  ring

/-- A decimal in the interval of a value that is not below the full mantissas is rounded in the unit of the
value. -/
theorem isUnit_of_inInterval {mantissa : Nat} {unit : Int} (hParts : IsBinary64 mantissa unit) {value : ℚ}
    (hInterval : InInterval mantissa unit value) (hSame : unit = -1074 ∨ 2 ^ 52 * 2 ^ unit ≤ value) :
    IsUnit value unit := by
  refine ⟨hParts.least_le, ?_, fun hOther => hSame.resolve_left hOther⟩
  have hHigh := hInterval.high
  have hQuarterPos : (0 : ℚ) < 2 ^ (unit - 2) := by positivity
  have hMantissa : (mantissa : ℚ) + 1 ≤ 2 ^ 53 := by exact_mod_cast hParts.mantissa_lt
  rw [two_zpow_quarter]
  nlinarith

/-- In the unit of the value, the mantissa is the closest whole number. -/
theorem roundQuotient_of_inInterval {mantissa : Nat} {unit : Int} {value : ℚ}
    (hInterval : InInterval mantissa unit value) {numerator denominator : Nat} (hPos : 0 < denominator)
    (hUnits : (numerator : ℚ) * 2 ^ unit = value * denominator) :
    roundQuotient numerator denominator = mantissa := by
  obtain ⟨hLow, hHigh, hInside⟩ := hInterval
  have hQuarter := two_zpow_quarter unit
  have hQuarterPos : (0 : ℚ) < 2 ^ (unit - 2) := by positivity
  have hGap : (gapBelow mantissa unit : ℚ) ≤ 2 := by exact_mod_cast gapBelow_le mantissa unit
  refine roundQuotient_of_value hPos (by positivity) hUnits ?_ ?_ fun hOdd => ?_
  · rw [hQuarter]
    nlinarith
  · rw [hQuarter]
    nlinarith
  · obtain ⟨hAbove, hBelow⟩ := hInside hOdd
    rw [hQuarter]
    constructor <;> nlinarith

/-- Only the least full mantissa has decimals in its interval that fall below the full mantissas, by no more
than a quarter of its unit. -/
theorem least_of_lt {mantissa : Nat} {unit : Int} (hParts : IsBinary64 mantissa unit) {value : ℚ}
    (hInterval : InInterval mantissa unit value) (hOther : unit ≠ -1074)
    (hLess : value < 2 ^ 52 * 2 ^ unit) :
    mantissa = 2 ^ 52 ∧ (2 ^ 54 - 1) * 2 ^ (unit - 2) ≤ value := by
  have hLow := hInterval.low
  have hFull := hParts.full_of_ne hOther
  have hQuarterPos : (0 : ℚ) < 2 ^ (unit - 2) := by positivity
  have hGap : (gapBelow mantissa unit : ℚ) ≤ 2 := by exact_mod_cast gapBelow_le mantissa unit
  have hExact : mantissa = 2 ^ 52 := by
    by_contra hAbove
    have hCast : ((2 ^ 52 + 1 : Nat) : ℚ) ≤ (mantissa : ℚ) := by
      exact_mod_cast (by omega : 2 ^ 52 + 1 ≤ mantissa)
    push_cast at hCast
    rw [two_zpow_quarter] at hLess
    nlinarith
  have hLeast := hParts.least_le
  have hGapOne : gapBelow mantissa unit = 1 := by
    rw [gapBelow, if_pos ⟨hExact.trans fullMantissa_eq.symm, by rw [leastExponent]; omega⟩]
  refine ⟨hExact, ?_⟩
  rw [hGapOne, hExact] at hLow
  push_cast at hLow
  linarith

/-- A quotient in the interval of a binary value is rounded to the value. -/
theorem nearestQuotient_of_inInterval {mantissa : Nat} {unit : Int} (hParts : IsBinary64 mantissa unit)
    {numerator denominator : Nat} (hNumerator : 0 < numerator) (hDenominator : 0 < denominator)
    (hInterval : InInterval mantissa unit (numerator / denominator)) (negative : Bool) :
    nearestQuotient negative numerator denominator = .finite negative mantissa unit := by
  have hUnits := inUnits_value numerator hDenominator (unitExponent numerator denominator)
  have hPos := inUnits_pos numerator hDenominator (unitExponent numerator denominator)
  have hUnit := isUnit_unitExponent hNumerator hDenominator
  have hLargest : ¬ largestExponent < unit := not_lt.mpr hParts.le_largest
  unfold nearestQuotient
  simp only
  generalize (numerator / denominator : ℚ) = value at *
  generalize unitExponent numerator denominator = chosen at *
  by_cases hSame : unit = -1074 ∨ 2 ^ 52 * 2 ^ unit ≤ value
  · -- The unit is the one of the value, and the mantissa is the closest whole number.
    obtain rfl := hUnit.unique (isUnit_of_inInterval hParts hInterval hSame)
    have hRound := roundQuotient_of_inInterval hInterval hPos hUnits
    have hBound := hParts.mantissa_lt
    have hCarry : mantissa ≠ 2 * fullMantissa := by
      rw [fullMantissa_eq]
      omega
    rw [hRound, if_neg hCarry, if_neg hLargest]
  · -- The value lies below the least full mantissa of its unit, so the decimal rounds up to a carry.
    rw [not_or, not_le] at hSame
    obtain ⟨hOther, hLess⟩ := hSame
    obtain ⟨hExact, hLow⟩ := least_of_lt hParts hInterval hOther hLess
    have hLeast := hParts.least_le
    have hHalf := two_zpow_half unit
    have hQuarter : (2 : ℚ) ^ (unit - 1) = 2 * 2 ^ (unit - 2) := by
      have hWhole := two_zpow_quarter unit
      linarith
    have hQuarterPos : (0 : ℚ) < 2 ^ (unit - 2) := by positivity
    have hBelow : IsUnit value (unit - 1) :=
      ⟨by omega, by linarith, fun _ => by rw [hQuarter]; linarith⟩
    obtain rfl := hUnit.unique hBelow
    have hRound : roundQuotient (inUnits numerator denominator (unit - 1)).1
        (inUnits numerator denominator (unit - 1)).2 = 2 ^ 53 := by
      refine roundQuotient_of_value hPos (by positivity) hUnits ?_ ?_ fun hOdd => by omega
      · rw [hQuarter]
        push_cast
        linarith
      · push_cast
        linarith
    have hCarry : 2 ^ 53 = 2 * fullMantissa := rfl
    rw [hRound, if_pos hCarry, Int.sub_add_cancel, if_neg hLargest, hExact, fullMantissa_eq]

theorem digitCount_bounds {n : Nat} (hn : 0 < n) : 10 ^ (digitCount n - 1) ≤ n ∧ n < 10 ^ digitCount n := by
  induction n using Nat.strong_induction_on with
  | _ n ih =>
      rw [digitCount, if_neg (by omega), Nat.add_sub_cancel]
      by_cases hSmall : n < 10
      · rw [show n / 10 = 0 by omega, digitCount, if_pos rfl]
        omega
      · obtain ⟨hLow, hHigh⟩ := ih (n / 10) (by omega) (by omega)
        have hSome : 0 < digitCount (n / 10) := by
          rw [digitCount, if_neg (by omega)]
          omega
        have hPower : 10 ^ digitCount (n / 10) = 10 * 10 ^ (digitCount (n / 10) - 1) := by
          rw [← Nat.pow_succ', Nat.succ_eq_add_one, Nat.sub_add_cancel hSome]
        rw [Nat.pow_succ]
        omega

/-- The number of digits and the exponent give the size of a decimal. -/
theorem value_bounds {s : Scaled} (hDigits : 0 < s.digits) :
    (10 : ℚ) ^ ((digitCount s.digits : Int) + s.exponent - 1) ≤ s.value ∧
      s.value < 10 ^ ((digitCount s.digits : Int) + s.exponent) := by
  obtain ⟨hLow, hHigh⟩ := digitCount_bounds hDigits
  have hSome : 0 < digitCount s.digits := by
    rw [digitCount, if_neg (by omega)]
    omega
  have hPower : (0 : ℚ) < 10 ^ s.exponent := by positivity
  have hTen : (10 : ℚ) ≠ 0 := by norm_num
  constructor
  · rw [show (digitCount s.digits : Int) + s.exponent - 1 =
        ((digitCount s.digits - 1 : Nat) : Int) + s.exponent by omega, zpow_add₀ hTen, zpow_natCast, Scaled.value]
    apply mul_le_mul_of_nonneg_right _ hPower.le
    exact_mod_cast hLow
  · rw [zpow_add₀ hTen, zpow_natCast, Scaled.value]
    apply mul_lt_mul_of_pos_right _ hPower
    exact_mod_cast hHigh

theorem ten_pow_le_two_pow : (10 : ℚ) ^ (-327 : Int) ≤ 2 ^ (-1076 : Int) := by
  have hNat : 2 ^ 1076 ≤ 10 ^ 327 := by decide +kernel
  have hCast : (2 : ℚ) ^ 1076 ≤ 10 ^ 327 := by exact_mod_cast hNat
  rw [zpow_neg, zpow_neg]
  exact inv_anti₀ (by positivity) hCast

theorem two_pow_lt_ten_pow : (2 : ℚ) ^ 55 * 2 ^ (969 : Int) < 10 ^ (310 : Int) := by
  have hNat : 2 ^ 55 * 2 ^ 969 < 10 ^ 310 := by decide +kernel
  exact_mod_cast hNat

/-- The interval of a binary value lies between `10 ^ (-327)` and `10 ^ 310`. -/
theorem interval_bounds {mantissa : Nat} {unit : Int} (hParts : IsBinary64 mantissa unit)
    (hMantissa : 0 < mantissa) {value : ℚ} (hInterval : InInterval mantissa unit value) :
    (10 : ℚ) ^ (-327 : Int) ≤ value ∧ value < 10 ^ (310 : Int) := by
  have hGap : (gapBelow mantissa unit : ℚ) ≤ 2 := by exact_mod_cast gapBelow_le mantissa unit
  have hOne : (1 : ℚ) ≤ mantissa := by exact_mod_cast hMantissa
  have hBound : (mantissa : ℚ) + 1 ≤ 2 ^ 53 := by exact_mod_cast hParts.mantissa_lt
  have hPower : (0 : ℚ) < 2 ^ (unit - 2) := by positivity
  have hLeast : (2 : ℚ) ^ (-1076 : Int) ≤ 2 ^ (unit - 2) :=
    zpow_le_zpow_right₀ (by norm_num) (by have := hParts.least_le; omega)
  have hLargest : (2 : ℚ) ^ (unit - 2) ≤ 2 ^ (969 : Int) :=
    zpow_le_zpow_right₀ (by norm_num) (by have := hParts.le_largest; omega)
  constructor
  · calc (10 : ℚ) ^ (-327 : Int) ≤ 2 ^ (-1076 : Int) := ten_pow_le_two_pow
      _ ≤ 2 ^ (unit - 2) := hLeast
      _ ≤ (4 * mantissa - gapBelow mantissa unit) * 2 ^ (unit - 2) :=
          le_mul_of_one_le_left hPower.le (by linarith)
      _ ≤ value := hInterval.low
  · calc value ≤ (4 * mantissa + 2) * 2 ^ (unit - 2) := hInterval.high
      _ ≤ 2 ^ 55 * 2 ^ (969 : Int) :=
          mul_le_mul (by linarith) hLargest hPower.le (by norm_num)
      _ < 10 ^ (310 : Int) := two_pow_lt_ten_pow

/-- A decimal in the interval of a binary value is rounded to the value. -/
theorem nearest_of_inInterval {mantissa : Nat} {unit : Int} (hParts : IsBinary64 mantissa unit)
    (hMantissa : 0 < mantissa) {s : Scaled} (hInterval : InInterval mantissa unit s.value)
    (negative : Bool) : nearest negative s = .finite negative mantissa unit := by
  obtain ⟨hAbove, hBelow⟩ := interval_bounds hParts hMantissa hInterval
  have hDigits : 0 < s.digits := by
    apply Nat.pos_of_ne_zero
    intro hZero
    rw [Scaled.value, hZero, Nat.cast_zero, zero_mul] at hAbove
    have hPos : (0 : ℚ) < 10 ^ (-327 : Int) := by positivity
    linarith
  obtain ⟨hLow, hHigh⟩ := value_bounds hDigits
  have hNotLarge : ¬ (310 : Int) < digitCount s.digits + s.exponent := by
    intro hLarge
    have hPowers : (10 : ℚ) ^ (310 : Int) ≤ 10 ^ ((digitCount s.digits : Int) + s.exponent - 1) :=
      zpow_le_zpow_right₀ (by norm_num) (by omega)
    linarith
  have hNotSmall : ¬ (digitCount s.digits : Int) + s.exponent < -326 := by
    intro hSmall
    have hPowers : (10 : ℚ) ^ ((digitCount s.digits : Int) + s.exponent) ≤ 10 ^ (-327 : Int) :=
      zpow_le_zpow_right₀ (by norm_num) (by omega)
    linarith
  unfold nearest
  simp only
  rw [if_neg (Nat.ne_of_gt hDigits), if_neg hNotLarge, if_neg hNotSmall]
  split
  · next hWhole =>
      refine nearestQuotient_of_inInterval hParts (Nat.mul_pos hDigits (powerOfTen_pos _))
        Nat.one_pos ?_ negative
      rw [Nat.cast_mul, powerOfTen_cast, ← zpow_natCast, Int.toNat_of_nonneg hWhole, Nat.cast_one, div_one]
      exact hInterval
  · next hFraction =>
      refine nearestQuotient_of_inInterval hParts hDigits (powerOfTen_pos _) ?_ negative
      rw [powerOfTen_cast, ← zpow_natCast, Int.toNat_of_nonneg (by omega), zpow_neg, div_inv_eq_mul]
      exact hInterval

end Decimal
end PlanLogic
