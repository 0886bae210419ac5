import PlanLogic.Proofs.Decimal.Bits

/-!
# Comparing the sizes of floating-point numbers

Of two numbers one is at most the other or above it, so a test for one of the two relations may stand in for the
other.  With what is not a number neither holds, and the two tests are not interchangeable.  The size of a number is
a number, and dividing by what is no number gives none.
-/

namespace PlanLogic
namespace Decimal

open Float.Model Float.Model.UnpackedFloat

/-! ## What is not a number -/

/-- A finite number is not packed as what is not a number. -/
theorem pack_finite_ne_packedNaN (sign : Sign) (mantissa : Nat) (exponent : Int) (hPositive : 0 < mantissa) :
    UnpackedFloat.pack Format.binary64 (.finite sign mantissa exponent hPositive) ≠ packedNaN Format.binary64 := by
  intro hSame
  have hExponent := congrArg unpackExponent hSame
  have hMantissa := congrArg unpackMantissa hSame
  rw [packedNaN, unpackExponent_packComponents] at hExponent
  rw [packedNaN, unpackMantissa_packComponents] at hMantissa
  simp only [UnpackedFloat.pack] at hExponent hMantissa
  split at hExponent
  -- What is too large becomes an infinity, which has no mantissa.
  · next hLarge =>
      rw [if_pos hLarge, packedInfinity, unpackMantissa_packComponents] at hMantissa
      exact absurd hMantissa (by decide)
  · next hSmall =>
      split at hExponent
      · rw [unpackExponent_packComponents] at hExponent
        have hField := congrArg BitVec.toNat hExponent
        have hLast : (-1#_ : BitVec Format.binary64.exponentBits).toNat = 2047 := by decide
        have hBits : 2 ^ Format.binary64.exponentBits = 2048 := by decide
        rw [hLast, BitVec.toNat_ofNat, hBits] at hField
        rw [hBits] at hSmall
        omega
      · rw [unpackExponent_packComponents] at hExponent
        exact absurd hExponent (by decide)

theorem isNaN_pack (value : UnpackedFloat) : (Float.Model.pack value).isNaN = value.isNaN := by
  have hPattern : (Float.Model.pack value).isNaN = true ↔
      UnpackedFloat.pack Format.binary64 value = packedNaN Format.binary64 :=
    isNaN_unpack_iff_of_valid (Float.Model.pack value).valid
  rw [Bool.eq_iff_iff, hPattern]
  cases value with
  | notANumber => simp [UnpackedFloat.pack, UnpackedFloat.isNaN]
  | infinity sign => cases sign <;> decide
  | zero sign => cases sign <;> decide
  | finite sign mantissa exponent hPositive =>
      exact iff_of_false (pack_finite_ne_packedNaN sign mantissa exponent hPositive) Bool.false_ne_true

theorem isNaN_abs (x : Float) : x.abs.isNaN = x.isNaN := by
  refine (isNaN_pack x.toModel.unpack.abs).trans ?_
  show _ = x.toModel.unpack.isNaN
  cases x.toModel.unpack <;> rfl

theorem isNaN_div_right {divisor : Float} (hDivisor : divisor.isNaN = true) (dividend : Float) :
    (dividend / divisor).isNaN = true := by
  have hUnpacked : divisor.toModel.unpack = .notANumber := isNaN_iff.mp hDivisor
  refine (isNaN_pack _).trans ?_
  rw [hUnpacked]
  cases dividend.toModel.unpack <;> rfl

/-! ## The two relations -/

/-- Comparing in the other order. -/
theorem compare_flip (x y : UnpackedFloat) : y.compare x = (x.compare y).map Ordering.swap := by
  cases x with
  | notANumber => cases y <;> rfl
  | infinity sign =>
      cases y with
      | infinity other => cases sign <;> cases other <;> rfl
      | notANumber => rfl
      | zero _ => cases sign <;> rfl
      | finite _ _ _ _ => cases sign <;> rfl
  | zero _ =>
      cases y with
      | finite other _ _ _ => cases other <;> rfl
      | infinity other => cases other <;> rfl
      | _ => rfl
  | finite sign mantissa exponent _ =>
      cases y with
      | notANumber => rfl
      | infinity other => cases sign <;> cases other <;> rfl
      | zero _ => cases sign <;> rfl
      | finite other otherMantissa otherExponent _ =>
          have hFields : (compare otherExponent exponent).then (compare otherMantissa mantissa) =
              ((compare exponent otherExponent).then (compare mantissa otherMantissa)).swap := by
            rw [Ordering.swap_then, Std.OrientedOrd.eq_swap (a := otherExponent),
              Std.OrientedOrd.eq_swap (a := otherMantissa)]
          cases sign <;> cases other
          · exact congrArg some (congrArg Ordering.swap hFields)
          · rfl
          · rfl
          · exact congrArg some hFields

/-- Two values can be compared if both are numbers. -/
theorem isSome_compare (x y : UnpackedFloat) : (x.compare y).isSome = (!x.isNaN && !y.isNaN) := by
  cases x with
  | notANumber => cases y <;> rfl
  | infinity sign => cases y <;> cases sign <;> rfl
  | zero _ =>
      cases y with
      | infinity other => cases other <;> rfl
      | finite other _ _ _ => cases other <;> rfl
      | _ => rfl
  | finite sign _ _ _ =>
      cases y with
      | notANumber => rfl
      | infinity other => cases sign <;> cases other <;> rfl
      | zero _ => cases sign <;> rfl
      | finite other _ _ _ => cases sign <;> cases other <;> rfl

theorem le_iff_compare (x y : Float) :
    x ≤ y ↔ (x.toModel.unpack.compare y.toModel.unpack).any Ordering.isLE = true :=
  decide_eq_true_iff

theorem lt_iff_compare (x y : Float) :
    y < x ↔ (x.toModel.unpack.compare y.toModel.unpack).map Ordering.swap = some .lt := by
  rw [← compare_flip]
  exact decide_eq_true_iff.trans beq_iff_eq

/-- Of two numbers one is at most the other or above it. -/
theorem not_le_iff_lt {x y : Float} (hLeft : x.isNaN = false) (hRight : y.isNaN = false) : ¬ x ≤ y ↔ y < x := by
  have hSome := isSome_compare x.toModel.unpack y.toModel.unpack
  rw [show x.toModel.unpack.isNaN = false from hLeft, show y.toModel.unpack.isNaN = false from hRight] at hSome
  obtain ⟨order, hOrder⟩ := Option.isSome_iff_exists.mp hSome
  rw [le_iff_compare, lt_iff_compare, hOrder]
  cases order <;> decide

/-- Neither relation holds of what is not a number. -/
theorem not_le_and_not_lt_of_isNaN {x : Float} (hValue : x.isNaN = true) (y : Float) : ¬ x ≤ y ∧ ¬ y < x := by
  have hNone : x.toModel.unpack.compare y.toModel.unpack = none := by
    rw [show x.toModel.unpack = .notANumber from isNaN_iff.mp hValue]
    rfl
  rw [le_iff_compare, lt_iff_compare, hNone]
  decide

end Decimal
end PlanLogic
