import PlanLogic.Proofs.Decimal.Numerals

/-!
# The end of the range

Rounding a decimal gives a finite value or an infinity.  The boundary is half-way between the largest finite value
and the power of two after it, and at the boundary itself the tie goes to the power of two, which has the even
mantissa.  So the decimals below the boundary, and no others, are rounded to finite values.
-/

namespace PlanLogic
namespace Decimal

/-- The least number that is rounded to an infinity. -/
def overflowLimit : ℚ :=
  (2 ^ 54 - 1) * 2 ^ (970 : Int)

/-! ## The closest whole number -/

/-- The closest whole number is half a denominator away at most. -/
theorem roundQuotient_spec (numerator : Nat) {denominator : Nat} (hDenominator : 0 < denominator) :
    2 * (roundQuotient numerator denominator * denominator) ≤ 2 * numerator + denominator ∧
      2 * numerator ≤ 2 * (roundQuotient numerator denominator * denominator) + denominator := by
  have hSplit := Nat.div_add_mod' numerator denominator
  have hRest := Nat.mod_lt numerator hDenominator
  unfold roundQuotient
  dsimp only
  generalize numerator / denominator = whole at *
  generalize numerator % denominator = rest at *
  split
  · omega
  split
  · rw [Nat.succ_mul whole denominator]
    omega
  · -- A tie goes to one of the two neighbours.
    obtain hEven | hOdd : whole % 2 = 0 ∨ whole % 2 = 1 := by omega
    · rw [hEven, Nat.add_zero]
      omega
    · rw [hOdd, Nat.succ_mul whole denominator]
      omega

/-- A quotient that is not above a whole number is not rounded above it. -/
theorem roundQuotient_le {numerator denominator whole : Nat} (hDenominator : 0 < denominator)
    (hLe : numerator ≤ whole * denominator) : roundQuotient numerator denominator ≤ whole := by
  have hLow := (roundQuotient_spec numerator hDenominator).1
  by_contra hAbove
  have hMul := Nat.mul_le_mul_right denominator (Nat.lt_of_not_le hAbove)
  rw [Nat.succ_mul] at hMul
  omega

/-- A quotient that is not below a whole number is not rounded below it. -/
theorem le_roundQuotient {numerator denominator whole : Nat} (hDenominator : 0 < denominator)
    (hLe : whole * denominator ≤ numerator) : whole ≤ roundQuotient numerator denominator := by
  have hHigh := (roundQuotient_spec numerator hDenominator).2
  by_contra hBelow
  have hMul := Nat.mul_le_mul_right denominator (Nat.lt_of_not_le hBelow)
  rw [Nat.succ_mul] at hMul
  omega

/-- A quotient below an even number is rounded to it from half a unit below. -/
theorem roundQuotient_eq_iff {numerator denominator whole : Nat} (hDenominator : 0 < denominator)
    (hLess : numerator < whole * denominator) (hEven : whole % 2 = 0) :
    roundQuotient numerator denominator = whole ↔ 2 * (whole * denominator) ≤ 2 * numerator + denominator := by
  constructor
  · intro hRound
    have hLow := (roundQuotient_spec numerator hDenominator).1
    rwa [hRound] at hLow
  · intro hLow
    refine roundQuotient_eq hDenominator hLow (by omega) fun hOdd => ?_
    omega

/-! ## Rounding a quotient -/

/-- A rounded value: an infinity for a number from the boundary on, and otherwise the parts of a finite value. -/
def IsRounded (negative : Bool) (value : ℚ) : Binary64 → Prop
  | .notANumber => False
  | .infinite sign => sign = negative ∧ overflowLimit ≤ value
  | .finite sign mantissa unit => sign = negative ∧ value < overflowLimit ∧ IsBinary64 mantissa unit

/-- A value with a unit below the largest one is below the boundary, and one with a larger unit is not. -/
theorem IsUnit.overflowLimit_le_iff {value : ℚ} {unit : Int} (hUnit : IsUnit value unit) (hOther : unit ≠ 971) :
    overflowLimit ≤ value ↔ 971 < unit := by
  have hPos : (0 : ℚ) < 2 ^ (970 : Int) := by positivity
  have hValue := hUnit.value_lt
  rw [overflowLimit]
  constructor
  · intro hLimit
    by_contra hSmall
    have hPower : (2 : ℚ) ^ unit ≤ 2 ^ (970 : Int) := zpow_le_zpow_right₀ (by norm_num) (by omega)
    generalize (2 : ℚ) ^ (970 : Int) = least at *
    linarith
  · intro hLarge
    have hPower : (2 : ℚ) ^ (972 : Int) ≤ 2 ^ unit := zpow_le_zpow_right₀ (by norm_num) (by omega)
    have hFull := hUnit.full_of_ne (by omega)
    rw [two_zpow_quarter 972, show (972 : Int) - 2 = 970 from rfl] at hPower
    generalize (2 : ℚ) ^ (970 : Int) = least at *
    linarith

/-- The closest whole number of units is a mantissa, or the least number that has one bit more. -/
theorem roundQuotient_bounds {numerator denominator : Nat} {value : ℚ} {unit : Int} (hDenominator : 0 < denominator)
    (hUnit : IsUnit value unit) (hUnits : (numerator : ℚ) * 2 ^ unit = value * denominator) :
    numerator < 2 ^ 53 * denominator ∧ roundQuotient numerator denominator ≤ 2 ^ 53 ∧
      (unit ≠ -1074 → 2 ^ 52 ≤ roundQuotient numerator denominator) := by
  have hPos : (0 : ℚ) < denominator := by exact_mod_cast hDenominator
  have hPower : (0 : ℚ) < 2 ^ unit := by positivity
  have hLess : numerator < 2 ^ 53 * denominator := by
    have hScaled : (numerator : ℚ) * 2 ^ unit < 2 ^ 53 * denominator * 2 ^ unit := by
      rw [hUnits, mul_right_comm]
      exact mul_lt_mul_of_pos_right hUnit.value_lt hPos
    exact_mod_cast lt_of_mul_lt_mul_right hScaled hPower.le
  refine ⟨hLess, roundQuotient_le hDenominator hLess.le, fun hOther => le_roundQuotient hDenominator ?_⟩
  have hScaled : (2 : ℚ) ^ 52 * denominator * 2 ^ unit ≤ numerator * 2 ^ unit := by
    rw [hUnits, mul_right_comm]
    exact mul_le_mul_of_nonneg_right (hUnit.full_of_ne hOther) hPos.le
  exact_mod_cast le_of_mul_le_mul_right hScaled hPower

/-- In the largest unit, exactly the values from the boundary on are rounded to a number with one bit too many. -/
theorem roundQuotient_eq_carry_iff {numerator denominator : Nat} {value : ℚ} (hDenominator : 0 < denominator)
    (hUnit : IsUnit value 971) (hUnits : (numerator : ℚ) * 2 ^ (971 : Int) = value * denominator) :
    roundQuotient numerator denominator = 2 ^ 53 ↔ overflowLimit ≤ value := by
  have hPos : (0 : ℚ) < denominator := by exact_mod_cast hDenominator
  have hPower : (0 : ℚ) < 2 ^ (970 : Int) := by positivity
  have hLess := (roundQuotient_bounds hDenominator hUnit hUnits).1
  have hCast : 2 * (2 ^ 53 * denominator) ≤ 2 * numerator + denominator ↔
      (2 * (2 ^ 53 * denominator) : ℚ) ≤ 2 * numerator + denominator := by
    exact_mod_cast Iff.rfl
  rw [two_zpow_half 971, show (971 : Int) - 1 = 970 from rfl] at hUnits
  rw [roundQuotient_eq_iff hDenominator hLess (by decide), hCast, overflowLimit]
  generalize (2 : ℚ) ^ (970 : Int) = half at *
  -- Both sides of the comparison are multiplied by the unit.
  have hScale : ((2 * (2 ^ 53 * denominator) : ℚ) - (2 * numerator + denominator)) * half =
      ((2 ^ 54 - 1) * half - value) * denominator := by
    linear_combination -hUnits
  constructor
  · intro hLow
    have hLess : ((2 ^ 54 - 1) * half - value) * denominator ≤ 0 := by
      rw [← hScale]
      exact mul_nonpos_of_nonpos_of_nonneg (sub_nonpos.mpr hLow) hPower.le
    exact sub_nonpos.mp (nonpos_of_mul_nonpos_left hLess hPos)
  · intro hLimit
    have hLess : ((2 * (2 ^ 53 * denominator) : ℚ) - (2 * numerator + denominator)) * half ≤ 0 := by
      rw [hScale]
      exact mul_nonpos_of_nonpos_of_nonneg (sub_nonpos.mpr hLimit) hPos.le
    exact sub_nonpos.mp (nonpos_of_mul_nonpos_left hLess hPower)

/-- Rounding a positive quotient. -/
theorem isRounded_nearestQuotient {numerator denominator : Nat} (hNumerator : 0 < numerator)
    (hDenominator : 0 < denominator) (negative : Bool) :
    IsRounded negative (numerator / denominator) (nearestQuotient negative numerator denominator) := by
  have hUnit := isUnit_unitExponent hNumerator hDenominator
  have hUnits := inUnits_value numerator hDenominator (unitExponent numerator denominator)
  have hPos := inUnits_pos numerator hDenominator (unitExponent numerator denominator)
  unfold nearestQuotient
  dsimp only
  generalize (numerator / denominator : ℚ) = value at *
  generalize unitExponent numerator denominator = unit at *
  generalize inUnits numerator denominator unit = scaled at *
  obtain ⟨-, hMost, hLeast⟩ := roundQuotient_bounds hPos hUnit hUnits
  have hLimit : overflowLimit ≤ value ↔ 971 < unit ∨ unit = 971 ∧ roundQuotient scaled.1 scaled.2 = 2 ^ 53 := by
    by_cases hLargest : unit = 971
    · subst hLargest
      rw [← roundQuotient_eq_carry_iff hPos hUnit hUnits]
      omega
    · rw [hUnit.overflowLimit_le_iff hLargest]
      omega
  have hUnitLeast := hUnit.least_le
  rw [fullMantissa_eq, largestExponent]
  generalize roundQuotient scaled.1 scaled.2 = mantissa at *
  have hCarry : 2 * 2 ^ 52 = 2 ^ 53 := by norm_num
  rw [hCarry]
  by_cases hFull : mantissa = 2 ^ 53
  · rw [if_pos hFull]
    dsimp only
    split
    · exact ⟨rfl, hLimit.mpr (by omega)⟩
    · exact ⟨rfl, not_le.mp (hLimit.not.mpr (by omega)), by omega, by omega, by omega, fun _ => le_refl _⟩
  · rw [if_neg hFull]
    dsimp only
    split
    · exact ⟨rfl, hLimit.mpr (by omega)⟩
    · exact ⟨rfl, not_le.mp (hLimit.not.mpr (by omega)), by omega, by omega, by omega, hLeast⟩

/-! ## Rounding a decimal -/

theorem isBinary64_zero : IsBinary64 0 leastExponent :=
  ⟨by decide, by decide, by decide, fun hOther => absurd rfl hOther⟩

/-- The boundary lies between the decimals that are told to be too small or too large by their size alone. -/
theorem overflowLimit_bounds : (10 : ℚ) ^ (-326 : Int) ≤ overflowLimit ∧ overflowLimit ≤ 10 ^ (310 : Int) := by
  have hPower := two_pow_lt_ten_pow.le
  have hOne : (1 : ℚ) ≤ 2 ^ (969 : Int) := one_le_zpow₀ (by norm_num) (by norm_num)
  have hSmall : (10 : ℚ) ^ (-326 : Int) ≤ 1 := zpow_le_one_of_nonpos₀ (by norm_num) (by norm_num)
  rw [overflowLimit, two_zpow_half 970, show (970 : Int) - 1 = 969 from rfl]
  generalize (2 : ℚ) ^ (969 : Int) = quarter at *
  exact ⟨by linarith, le_trans (by linarith) hPower⟩

/-- Exactly the decimals below the boundary are rounded to finite values. -/
theorem isRounded_nearest (negative : Bool) (s : Scaled) : IsRounded negative s.value (nearest negative s) := by
  obtain ⟨hLeast, hMost⟩ := overflowLimit_bounds
  have hPos : (0 : ℚ) < 10 ^ (-326 : Int) := by positivity
  unfold nearest
  dsimp only
  split
  · next hZero =>
      have hValue : s.value = 0 := by rw [Scaled.value, hZero, Nat.cast_zero, zero_mul]
      exact ⟨rfl, by linarith, isBinary64_zero⟩
  next hSome =>
  have hDigits : 0 < s.digits := Nat.pos_of_ne_zero hSome
  obtain ⟨hLow, hHigh⟩ := value_bounds hDigits
  split
  · next hLarge =>
      have hPower : (10 : ℚ) ^ (310 : Int) ≤ 10 ^ ((digitCount s.digits : Int) + s.exponent - 1) :=
        zpow_le_zpow_right₀ (by norm_num) (by omega)
      exact ⟨rfl, by linarith⟩
  split
  · next hSmall =>
      have hPower : (10 : ℚ) ^ ((digitCount s.digits : Int) + s.exponent) ≤ 10 ^ (-326 : Int) :=
        zpow_le_zpow_right₀ (by norm_num) (by omega)
      exact ⟨rfl, by linarith, isBinary64_zero⟩
  split
  · next hWhole =>
      have hValue : s.value = (s.digits * powerOfTen s.exponent.toNat : Nat) / (1 : Nat) := by
        rw [Nat.cast_mul, powerOfTen_cast, ← zpow_natCast, Int.toNat_of_nonneg hWhole, Nat.cast_one, div_one,
          Scaled.value]
      rw [hValue]
      exact isRounded_nearestQuotient (Nat.mul_pos hDigits (powerOfTen_pos _)) Nat.one_pos negative
  · next hFraction =>
      have hValue : s.value = s.digits / powerOfTen (-s.exponent).toNat := by
        rw [powerOfTen_cast, ← zpow_natCast, Int.toNat_of_nonneg (by omega), zpow_neg, div_inv_eq_mul, Scaled.value]
      rw [hValue]
      exact isRounded_nearestQuotient hDigits (powerOfTen_pos _) negative

/-! ## Parts put together -/

/-- The pattern of a finite value has no special exponent field. -/
theorem IsBinary64.toBits_bounds {mantissa : Nat} {unit : Int} (hParts : IsBinary64 mantissa unit) (negative : Bool) :
    (Binary64.finite negative mantissa unit).toBits < 2 ^ 64 ∧
      (Binary64.finite negative mantissa unit).toBits / 2 ^ 52 % 2 ^ 11 ≠ 2047 := by
  obtain ⟨hBound, hLeast, hLargest, -⟩ := hParts
  have hSign : Binary64.signBit negative = 0 ∨ Binary64.signBit negative = 2 ^ 63 := by cases negative <;> decide
  rw [Binary64.toBits, fullMantissa_eq, leastExponent]
  split
  · omega
  · omega

/-- The parts of a finite value make a finite number. -/
theorem IsBinary64.isFinite_toFloat {mantissa : Nat} {unit : Int} (hParts : IsBinary64 mantissa unit)
    (negative : Bool) : (Binary64.finite negative mantissa unit).toFloat.isFinite = true := by
  obtain ⟨hBound, hField⟩ := hParts.toBits_bounds negative
  have hNat : (UInt64.ofNat (Binary64.finite negative mantissa unit).toBits).toNat =
      (Binary64.finite negative mantissa unit).toBits :=
    UInt64.toNat_ofNat_of_lt' hBound
  by_contra hSpecial
  rw [Bool.not_eq_true] at hSpecial
  have hSame := field_eq_special hSpecial
  rw [Binary64.toFloat, toBits_ofBits (by rwa [hNat]), hNat] at hSame
  exact hField hSame

/-- A decimal is rounded to a finite number, or to an infinity from the boundary on. -/
theorem nearest_cases (negative : Bool) (s : Scaled) :
    s.value < overflowLimit ∧ (nearest negative s).toFloat.isFinite = true ∨
      overflowLimit ≤ s.value ∧ nearest negative s = .infinite negative := by
  have hRounded := isRounded_nearest negative s
  cases hNearest : nearest negative s with
  | notANumber =>
      rw [hNearest] at hRounded
      exact hRounded.elim
  | infinite sign =>
      rw [hNearest] at hRounded
      obtain ⟨rfl, hLimit⟩ := hRounded
      exact .inr ⟨hLimit, rfl⟩
  | finite sign mantissa unit =>
      rw [hNearest] at hRounded
      obtain ⟨-, hLess, hParts⟩ := hRounded
      exact .inl ⟨hLess, hParts.isFinite_toFloat sign⟩

end Decimal
end PlanLogic
