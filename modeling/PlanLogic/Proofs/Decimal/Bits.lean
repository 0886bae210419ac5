import PlanLogic.Decimal.Binary64
import Mathlib

/-!
# Bit patterns of floating-point numbers

A floating-point number is its bit pattern, and taking a finite one apart into sign, mantissa and exponent
loses nothing.  The parts are bounded: a mantissa has at most 53 bits, and it has fewer only at the least
exponent.
-/

namespace PlanLogic
namespace Decimal

open Float.Model Float.Model.UnpackedFloat

/-! ## The fields of a pattern -/

theorem toNat_packComponents (sign : Sign) (exponent : BitVec 11) (mantissa : BitVec 52) :
    (packComponents Format.binary64 sign exponent mantissa).toNat =
      (sign.toBitVec.toNat * 2 ^ 11 + exponent.toNat) * 2 ^ 52 + mantissa.toNat := by
  rw [packComponents, BitVec.toNat_append, BitVec.toNat_append,
    ← Nat.shiftLeft_add_eq_or_of_lt exponent.isLt, ← Nat.shiftLeft_add_eq_or_of_lt mantissa.isLt,
    Nat.shiftLeft_eq, Nat.shiftLeft_eq]

theorem toNat_unpackMantissa (bits : BitVec Format.binary64.numBits) :
    (unpackMantissa bits).toNat = bits.toNat % 2 ^ 52 := by
  simp [unpackMantissa]

theorem toNat_unpackExponent (bits : BitVec Format.binary64.numBits) :
    (unpackExponent bits).toNat = bits.toNat / 2 ^ 52 % 2 ^ 11 := by
  simp [unpackExponent, Nat.shiftRight_eq_div_pow]

theorem toNat_unpackSign (bits : BitVec Format.binary64.numBits) :
    (unpackSign bits).toNat = bits.toNat / 2 ^ 63 % 2 := by
  simp [unpackSign, Nat.shiftRight_eq_div_pow]

theorem toBitVec_ofBitVec (sign : BitVec 1) : (Sign.ofBitVec sign).toBitVec = sign := by
  revert sign
  decide

/-- A pattern is put together from its fields. -/
theorem packComponents_fields (bits : BitVec Format.binary64.numBits) {exponent : BitVec 11}
    {mantissa : BitVec 52} (hExponent : unpackExponent bits = exponent)
    (hMantissa : unpackMantissa bits = mantissa) :
    packComponents Format.binary64 (Sign.ofBitVec (unpackSign bits)) exponent mantissa = bits := by
  have hBits : bits.toNat < 2 ^ 64 := bits.isLt
  apply BitVec.eq_of_toNat_eq
  rw [toNat_packComponents, toBitVec_ofBitVec, toNat_unpackSign, ← hExponent, ← hMantissa,
    toNat_unpackExponent, toNat_unpackMantissa]
  omega

/-- A mantissa with the implicit bit. -/
theorem toNat_one_append (mantissa : BitVec 52) : (1#1 ++ mantissa).toNat = 2 ^ 52 + mantissa.toNat := by
  rw [BitVec.toNat_append, ← Nat.shiftLeft_add_eq_or_of_lt mantissa.isLt, Nat.shiftLeft_eq]
  rfl

theorem log2_one_append (mantissa : BitVec 52) : (1#1 ++ mantissa).toNat.log2 = 52 := by
  have hMantissa := mantissa.isLt
  rw [toNat_one_append, Nat.log2_eq_iff (by omega)]
  omega

/-- Unpacking and packing gives a valid pattern back. -/
theorem pack_unpack {bits : BitVec Format.binary64.numBits} (hValid : Format.binary64.Valid bits) :
    UnpackedFloat.pack Format.binary64 (UnpackedFloat.unpack Format.binary64 bits) = bits := by
  have hBias : ((Format.binary64.exponentBias : Nat) : Int) = 1023 := rfl
  have hStored : ((Format.binary64.mantissaBitsWithoutImplicit : Nat) : Int) = 52 := rfl
  have hAll : Format.binary64.mantissaBits = 53 := rfl
  rw [UnpackedFloat.unpack]
  split
  · next hExponent =>
      -- The special exponent: an infinity, or the one pattern that is not a number.
      split
      · next hMantissa => exact packComponents_fields bits hExponent hMantissa
      · next hMantissa => exact (hValid.eq_packedNaN hExponent hMantissa).symm
  next hSpecial =>
  split
  · next hExponent =>
      split
      · next hMantissa => exact packComponents_fields bits hExponent hMantissa
      · next hMantissa =>
          -- A subnormal mantissa is shorter than the stored bits, so packing keeps it as it is.
          have hSmall : (unpackMantissa bits).toNat.log2 < 52 :=
            (Nat.log2_lt fun hZero => hMantissa (BitVec.eq_of_toNat_eq hZero)).mpr (unpackMantissa bits).isLt
          have hField : (unpackExponent bits).toNat = 0 := by
            rw [hExponent]
            rfl
          rw [UnpackedFloat.pack, if_neg, if_neg]
          · exact packComponents_fields bits hExponent (by rw [BitVec.ofNat_toNat, BitVec.setWidth_eq])
          · omega
          · rw [hField, hBias, hStored]
            decide
  · next hExponent =>
      -- A normal mantissa was given its implicit bit, and packing cuts the bit off again.
      have hField : (((unpackExponent bits).toNat : Int) -
          ((Format.binary64.exponentBias : Nat) + (Format.binary64.mantissaBitsWithoutImplicit : Nat)) +
          (Format.binary64.exponentBias : Nat) +
          (Format.binary64.mantissaBitsWithoutImplicit : Nat)).toNat = (unpackExponent bits).toNat := by
        omega
      have hBound : (unpackExponent bits).toNat < 2 ^ 11 := (unpackExponent bits).isLt
      have hOther : (unpackExponent bits).toNat ≠ 2047 := fun hSame =>
        hSpecial (BitVec.eq_of_toNat_eq hSame)
      rw [UnpackedFloat.pack, hField, if_neg, if_pos]
      · refine packComponents_fields bits (by rw [BitVec.ofNat_toNat, BitVec.setWidth_eq]) ?_
        apply BitVec.eq_of_toNat_eq
        have hMantissa : (unpackMantissa bits).toNat < 2 ^ 52 := (unpackMantissa bits).isLt
        rw [BitVec.toNat_ofNat, toNat_one_append]
        show _ = (2 ^ 52 + (unpackMantissa bits).toNat) % 2 ^ 52
        omega
      · rw [log2_one_append, hAll]
      · show ¬ 2 ^ 11 ≤ (unpackExponent bits).toNat + 1
        omega

/-- A floating-point number is given by its pattern. -/
theorem ofBits_toBits (x : Float) : Float.ofBits x.toBits = x := by
  obtain ⟨bits, hValid⟩ := x
  have hPattern := pack_unpack hValid
  simp only [Float.ofBits, Float.toBits, Float.Model.ofBits, Float.Model.pack, hPattern]

/-- A pattern whose exponent field is not the special one is the pattern of its number. -/
theorem toBits_ofBits {bits : UInt64} (hField : bits.toNat / 2 ^ 52 % 2 ^ 11 ≠ 2047) :
    (Float.ofBits bits).toBits = bits := by
  have hValid : Format.binary64.Valid bits.toBitVec := by
    refine ⟨fun hExponent _ => absurd ?_ hField⟩
    have hNat := congrArg BitVec.toNat hExponent
    rw [toNat_unpackExponent] at hNat
    exact hNat
  exact congrArg UInt64.ofBitVec (pack_unpack hValid)

/-- The exponent field of a finite number is not the special one. -/
theorem field_ne_special {x : Float} (hFinite : x.isFinite = true) :
    x.toBits.toNat / 2 ^ 52 % 2 ^ 11 ≠ 2047 := by
  intro hField
  have hSpecial : @unpackExponent Format.binary64 x.toModel.toBits.toBitVec = -1#_ := by
    apply BitVec.eq_of_toNat_eq
    rw [toNat_unpackExponent]
    exact hField
  rw [Float.isFinite, Float.Model.isFinite, Float.Model.unpack, UnpackedFloat.unpack] at hFinite
  simp only [hSpecial, if_true] at hFinite
  split at hFinite <;> simp [UnpackedFloat.isFinite] at hFinite

/-! ## Numbers taken apart -/

/-- The parts of a finite number: a mantissa of at most 53 bits, which has fewer only at the least exponent.
-/
structure IsBinary64 (mantissa : Nat) (unit : Int) : Prop where
  mantissa_lt : mantissa < 2 ^ 53
  least_le : -1074 ≤ unit
  le_largest : unit ≤ 971
  full_of_ne : unit ≠ -1074 → 2 ^ 52 ≤ mantissa

theorem fullMantissa_eq : fullMantissa = 2 ^ 52 :=
  rfl

theorem ofBits_eq {bits : Nat} (hField : bits / 2 ^ 52 % 2 ^ 11 ≠ 2047) :
    Binary64.ofBits bits =
      if bits / 2 ^ 52 % 2 ^ 11 = 0 then
        .finite (decide (bits / 2 ^ 63 % 2 = 1)) (bits % 2 ^ 52) (-1074)
      else
        .finite (decide (bits / 2 ^ 63 % 2 = 1)) (2 ^ 52 + bits % 2 ^ 52)
          (-1074 + ((bits / 2 ^ 52 % 2 ^ 11 : Nat) - 1)) := by
  show (if bits / 2 ^ 52 % 2 ^ 11 = 2047 then _ else _) = _
  rw [if_neg hField]
  rfl

theorem signBit_decide (bit : Nat) : Binary64.signBit (decide (bit % 2 = 1)) = bit % 2 * 2 ^ 63 := by
  obtain hZero | hOne : bit % 2 = 0 ∨ bit % 2 = 1 := by omega
  · rw [hZero]
    rfl
  · rw [hOne]
    rfl

/-- A finite number, taken apart, has parts within the bounds, and they give the number back. -/
theorem ofFloat_finite {x : Float} (hFinite : x.isFinite = true) :
    ∃ negative mantissa unit, Binary64.ofFloat x = .finite negative mantissa unit ∧
      IsBinary64 mantissa unit ∧ (Binary64.finite negative mantissa unit).toFloat = x := by
  have hBits : x.toBits.toNat < 2 ^ 64 := x.toBits.toNat_lt
  have hField := field_ne_special hFinite
  have hBack (value : Binary64) (hValue : value.toBits = x.toBits.toNat) : value.toFloat = x := by
    rw [Binary64.toFloat, hValue, UInt64.ofNat_toNat, ofBits_toBits]
  rw [Binary64.ofFloat, ofBits_eq hField]
  split
  · next hZero =>
      refine ⟨_, _, _, rfl, ⟨by omega, by omega, by omega, fun hOther => absurd rfl hOther⟩, hBack _ ?_⟩
      rw [Binary64.toBits, signBit_decide, fullMantissa_eq, if_pos (by omega)]
      omega
  · next hNormal =>
      refine ⟨_, _, _, rfl, ⟨by omega, by omega, by omega, fun _ => by omega⟩, hBack _ ?_⟩
      rw [Binary64.toBits, signBit_decide, fullMantissa_eq, if_neg (by omega), leastExponent]
      omega

end Decimal
end PlanLogic
