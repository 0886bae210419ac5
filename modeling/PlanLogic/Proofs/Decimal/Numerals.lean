import PlanLogic.Proofs.Decimal.RoundTrip

/-!
# Every value reads back

A document may hold any value, also an infinity or the one that is not a number.  The text of a value, in any
layout, is a numeral of that value, and it is a single symbol.
-/

namespace PlanLogic
namespace Decimal

open Float.Model Float.Model.UnpackedFloat

/-! ## Values that are not finite -/

/-- Only the special exponent field belongs to values that are not finite. -/
theorem field_eq_special {x : Float} (hSpecial : x.isFinite = false) :
    x.toBits.toNat / 2 ^ 52 % 2 ^ 11 = 2047 := by
  by_contra hField
  have hOther : @unpackExponent Format.binary64 x.toModel.toBits.toBitVec ≠ -1#_ := by
    intro hSame
    apply hField
    have hNat := congrArg BitVec.toNat hSame
    rw [toNat_unpackExponent] at hNat
    exact hNat
  rw [Float.isFinite, Float.Model.isFinite, Float.Model.unpack, UnpackedFloat.unpack] at hSpecial
  simp only [if_neg hOther] at hSpecial
  split at hSpecial
  · split at hSpecial <;> simp [UnpackedFloat.isFinite] at hSpecial
  · simp [UnpackedFloat.isFinite] at hSpecial

/-- The only pattern of the value that is not a number. -/
theorem toBits_eq_of_fraction {x : Float} (hField : x.toBits.toNat / 2 ^ 52 % 2 ^ 11 = 2047)
    (hFraction : x.toBits.toNat % 2 ^ 52 ≠ 0) : x.toBits.toNat = Binary64.notANumber.toBits := by
  have hExponent : @unpackExponent Format.binary64 x.toModel.toBits.toBitVec = -1#_ := by
    apply BitVec.eq_of_toNat_eq
    rw [toNat_unpackExponent]
    exact hField
  have hMantissa : @unpackMantissa Format.binary64 x.toModel.toBits.toBitVec ≠ 0#_ := by
    intro hZero
    apply hFraction
    have hNat := congrArg BitVec.toNat hZero
    rw [toNat_unpackMantissa] at hNat
    exact hNat
  exact congrArg BitVec.toNat (x.toModel.valid.eq_packedNaN hExponent hMantissa)

/-- A value that is not finite, taken apart, is one of three, and gives the value back. -/
theorem ofFloat_special {x : Float} (hSpecial : x.isFinite = false) :
    ∃ value, Binary64.ofFloat x = value ∧ value.toFloat = x ∧
      (value = .notANumber ∨ ∃ negative, value = .infinite negative) := by
  have hBits : x.toBits.toNat < 2 ^ 64 := x.toBits.toNat_lt
  have hField := field_eq_special hSpecial
  have hBack (value : Binary64) (hValue : value.toBits = x.toBits.toNat) : value.toFloat = x := by
    rw [Binary64.toFloat, hValue, UInt64.ofNat_toNat, ofBits_toBits]
  have hParts : Binary64.ofFloat x =
      if x.toBits.toNat % 2 ^ 52 = 0 then .infinite (decide (x.toBits.toNat / 2 ^ 63 % 2 = 1))
      else .notANumber := by
    show (if x.toBits.toNat / 2 ^ 52 % 2 ^ 11 = 2047 then _ else _) = _
    rw [if_pos hField]
    rfl
  rw [hParts]
  split
  · refine ⟨_, rfl, hBack _ ?_, .inr ⟨_, rfl⟩⟩
    rw [Binary64.toBits, signBit_decide, fullMantissa_eq, specialField]
    omega
  · next hFraction => exact ⟨_, rfl, hBack _ (toBits_eq_of_fraction hField hFraction).symm, .inl rfl⟩

/-! ## Numerals -/

theorem dropUnderscores?_of_notMem {cs : List Char} (hNone : '_' ∉ cs) (afterDigit : Bool) :
    dropUnderscores? afterDigit cs = some cs := by
  induction cs generalizing afterDigit with
  | nil => rfl
  | cons c cs ih =>
      rw [List.mem_cons, not_or] at hNone
      rw [dropUnderscores?.eq_3, if_neg (Ne.symm hNone.1), ih hNone.2, Option.map_some]
      rintro d ds rfl
      exact fun _ => hNone.1 rfl

theorem takeSign_suffix (cs : List Char) : (takeSign cs).2 <:+ cs := by
  unfold takeSign
  split
  · exact List.suffix_cons _ _
  · exact List.suffix_cons _ _
  · exact List.suffix_refl _

/-- The words for special values hold a letter that no other number has. -/
theorem special?_eq_none {cs : List Char} (hChars : ∀ c ∈ cs, c ∈ numberChars) (negative : Bool) :
    special? negative cs = none := by
  have hLetter : 'n' ∉ cs.map asciiLower := by
    intro hMem
    obtain ⟨c, hIn, hLower⟩ := List.mem_map.mp hMem
    have hAll : numberChars.all (fun c => asciiLower c != 'n') = true := by decide
    have hOther := List.all_eq_true.mp hAll c (hChars c hIn)
    exact bne_iff_ne.mp hOther hLower
  unfold special?
  dsimp only
  rw [if_neg, if_neg]
  · intro hWord
    exact hLetter (hWord ▸ by decide)
  · rintro (hWord | hWord)
    · exact hLetter (hWord ▸ by decide)
    · exact hLetter (hWord ▸ by decide)

/-- A literal of the characters of numbers is a numeral of the same value. -/
theorem numeral?_eq_literal? {cs : List Char} (hChars : ∀ c ∈ cs, c ∈ numberChars) :
    numeral? cs = literal? cs := by
  have hNone : '_' ∉ cs := fun hMem => absurd (hChars _ hMem) (by decide)
  have hSpecial := special?_eq_none (fun c hMem => hChars c ((takeSign_suffix cs).subset hMem)) (takeSign cs).1
  rw [numeral?, dropUnderscores?_of_notMem hNone, Option.bind_some, literal?, dropLineFeed_of_numberChars hChars]
  simp only [hSpecial]

/-- The text of any value is read back as the value. -/
theorem numeral?_text (layout : Layout) (x : Float) : numeral? (layout.text x).toList = some x := by
  cases hFinite : x.isFinite with
  | true => rw [numeral?_eq_literal? (text_chars layout hFinite).2, literal?_text layout hFinite]
  | false =>
      obtain ⟨value, hParts, hBack, rfl | ⟨negative, rfl⟩⟩ := ofFloat_special hFinite
      · rw [Layout.text, String.toList_ofList, hParts, ← hBack]
        rfl
      · rw [Layout.text, String.toList_ofList, hParts, ← hBack]
        cases negative with
        | false => rfl
        | true => rfl

/-- The letters of the words for special values. -/
def specialLetters : List Char :=
  ['i', 'n', 'f', 'a']

/-- The text of any value holds no other characters than those of numbers and of the words for special
values, and at least one. -/
theorem text_letters (layout : Layout) (x : Float) :
    (layout.text x).toList ≠ [] ∧ ∀ c ∈ (layout.text x).toList, c ∈ numberChars ++ specialLetters := by
  have hWord {word : List Char} (hSome : word ≠ [])
      (hChars : word.all (numberChars ++ specialLetters).contains = true) :
      word ≠ [] ∧ ∀ c ∈ word, c ∈ numberChars ++ specialLetters :=
    ⟨hSome, fun c hMem => List.contains_iff_mem.mp (List.all_eq_true.mp hChars c hMem)⟩
  cases hFinite : x.isFinite with
  | true =>
      obtain ⟨hSome, hChars⟩ := text_chars layout hFinite
      exact ⟨hSome, fun c hMem => List.mem_append_left _ (hChars c hMem)⟩
  | false =>
      obtain ⟨value, hParts, -, hValue⟩ := ofFloat_special hFinite
      rw [Layout.text, String.toList_ofList, hParts]
      obtain rfl | ⟨negative, rfl⟩ := hValue
      · exact hWord (List.cons_ne_nil _ _) (by decide : ['n', 'a', 'n'].all _ = true)
      · cases negative with
        | false => exact hWord (List.cons_ne_nil _ _) (by decide : ['i', 'n', 'f'].all _ = true)
        | true => exact hWord (List.cons_ne_nil _ _) (by decide : ['-', 'i', 'n', 'f'].all _ = true)

end Decimal
end PlanLogic
