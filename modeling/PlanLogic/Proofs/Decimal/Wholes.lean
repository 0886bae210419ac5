import PlanLogic.Proofs.Decimal.Literals
import PlanLogic.Proofs.Decimal.Numerals

/-!
# Whole numbers

A whole number is read from a bounded number of digits, so it stays below a power of ten.  The text of any whole number
below that power has no more digits than are read, and is read as the number.
-/

namespace PlanLogic
namespace Decimal

open Text

/-! ## How large a number is -/

/-- A number is below the power of ten that has one more digit. -/
theorem positional_lt {places : List Nat} (hPlaces : AreDigits places) (start : Nat) :
    positional start places < (start + 1) * 10 ^ places.length := by
  induction places generalizing start with
  | nil => simp [positional]
  | cons digit places ih =>
      have hDigit : digit < 10 := hPlaces digit List.mem_cons_self
      calc positional start (digit :: places) = positional (10 * start + digit) places := rfl
        _ < (10 * start + digit + 1) * 10 ^ places.length :=
          ih (fun other hMem => hPlaces other (List.mem_cons_of_mem digit hMem)) _
        _ ≤ ((start + 1) * 10) * 10 ^ places.length := Nat.mul_le_mul_right _ (by omega)
        _ = (start + 1) * 10 ^ (digit :: places).length := by
          rw [List.length_cons, Nat.pow_succ, Nat.mul_assoc, Nat.mul_comm 10]

theorem IsRun.areDigits {run : List Char} {places : List Nat} (hRun : IsRun run places) : AreDigits places := by
  intro digit hMem
  have hSome : some digit ∈ run.map digitValue? := hRun ▸ List.mem_map_of_mem hMem
  obtain ⟨c, -, hDigit⟩ := List.mem_map.mp hSome
  exact digitValue?_lt hDigit

/-- A whole number that was read has a bounded number of digits. -/
theorem natAbs_lt_of_whole? {cs : List Char} {value : Int} (hValue : whole? cs = some value) :
    value.natAbs < 10 ^ maxWholeDigits := by
  rw [whole?, Option.bind_eq_some_iff] at hValue
  obtain ⟨plain, -, hValue⟩ := hValue
  dsimp only at hValue
  obtain ⟨run, -, hRun, -⟩ := takeDigits_spec (takeSign plain).2
  split at hValue
  · next digit more hDigits =>
      rw [hDigits] at hRun
      split at hValue
      · next hShort =>
          have hBelow := positional_lt hRun.areDigits 0
          have hPower : 10 ^ (digit :: more).length ≤ 10 ^ maxWholeDigits := Nat.pow_le_pow_right (by decide) hShort
          rw [Nat.zero_add, Nat.one_mul] at hBelow
          rw [← Option.some.inj hValue]
          split
          · rw [Int.natAbs_neg, Int.natAbs_natCast]
            exact Nat.lt_of_lt_of_le hBelow hPower
          · rw [Int.natAbs_natCast]
            exact Nat.lt_of_lt_of_le hBelow hPower
      · exact absurd hValue (Option.some_ne_none _).symm
  · exact absurd hValue (Option.some_ne_none _).symm

/-! ## Reading what was written -/

theorem digitValue?_of_isDigit {c : Char} (hDigit : c.isDigit = true) :
    digitValue? c = some (c.toNat - '0'.toNat) := by
  have hAll : ∀ digit : Fin 10, (digitChar digit).toNat - '0'.toNat = digit := by decide
  obtain ⟨digit, hBelow, rfl⟩ := exists_digit_of_isDigit hDigit
  rw [digitValue?_digitChar hBelow, hAll ⟨digit, hBelow⟩]

/-- The digits of a number are a run with that value. -/
theorem isRun_toDigits (n : Nat) :
    ∃ places, IsRun (Nat.toDigits 10 n) places ∧ places.length = (Nat.toDigits 10 n).length ∧
      positional 0 places = n := by
  refine ⟨(Nat.toDigits 10 n).map fun c => c.toNat - '0'.toNat, ?_, List.length_map _, ?_⟩
  · rw [IsRun, List.map_map]
    exact List.map_congr_left fun c hMem =>
      digitValue?_of_isDigit (Nat.isDigit_of_mem_toDigits (by decide) (by decide) hMem)
  · rw [positional, List.foldl_map]
    exact Nat.ofDigitChars_toDigits (by decide) (by decide)

/-- A sign with the digits of a number is read as the number with that sign. -/
theorem whole?_toDigits {n : Nat} (hShort : n < 10 ^ maxWholeDigits) {sign : List Char} {negative : Bool}
    (hSign : IsSign sign negative) :
    whole? (sign ++ Nat.toDigits 10 n) = some (if negative then -(n : Int) else n) := by
  obtain ⟨places, hRun, hLength, hValue⟩ := isRun_toDigits n
  have hSome : places ≠ [] := by
    rw [← List.length_pos_iff, hLength]
    exact Nat.length_toDigits_pos
  have hPlain : '_' ∉ sign ++ Nat.toDigits 10 n := by
    have hNone : '_' ∉ sign := by cases hSign <;> decide
    exact List.not_mem_append hNone Nat.underscore_not_in_toDigits
  have hTaken : takeDigits (Nat.toDigits 10 n ++ []) = (places, []) := takeDigits_append hRun rfl
  rw [List.append_nil] at hTaken
  have hBound : places.length ≤ maxWholeDigits := by
    rw [hLength, Nat.length_toDigits_le_iff (by decide) (by decide)]
    exact hShort
  have hUnsigned := hRun.takeSign hSome []
  rw [List.append_nil] at hUnsigned
  rw [whole?, dropUnderscores?_of_notMem hPlain, Option.bind_some, takeSign_append hSign hUnsigned]
  obtain ⟨digit, more, rfl⟩ := List.exists_cons_of_ne_nil hSome
  dsimp only
  rw [hTaken]
  dsimp only
  rw [if_pos hBound, hValue]

/-- The text of a whole number is a sign, if it is below zero, and the digits of its size. -/
theorem exists_sign (value : Int) :
    ∃ sign negative, IsSign sign negative ∧ (toString value).toList = sign ++ Nat.toDigits 10 value.natAbs ∧
      (if negative then -(value.natAbs : Int) else value.natAbs) = value := by
  cases value with
  | ofNat n =>
      refine ⟨[], false, .none, ?_, rfl⟩
      show (toString n).toList = _
      rw [Nat.toString_eq_ofList_toDigits, String.toList_ofList]
      rfl
  | negSucc n =>
      refine ⟨['-'], true, .minus, ?_, rfl⟩
      show ("-" ++ toString (n + 1)).toList = _
      rw [Nat.toString_eq_ofList_toDigits, String.toList_append]
      exact congrArg ('-' :: ·) String.toList_ofList

/-- The text of a whole number is read as the number. -/
theorem whole?_toString {value : Int} (hValue : value.natAbs < 10 ^ maxWholeDigits) :
    whole? (toString value).toList = some value := by
  obtain ⟨sign, negative, hSign, hText, hSame⟩ := exists_sign value
  rw [hText, whole?_toDigits hValue hSign, hSame]

/-- The text of a whole number consists of characters of numbers. -/
theorem mem_numberChars_of_mem_toString {value : Int} {c : Char} (hMem : c ∈ (toString value).toList) :
    c ∈ numberChars := by
  obtain ⟨sign, negative, hSign, hText, -⟩ := exists_sign value
  have hSigns : ∀ c ∈ sign, c ∈ numberChars := by cases hSign <;> simp [numberChars]
  rw [hText] at hMem
  rcases List.mem_append.mp hMem with hFront | hBack
  · exact hSigns c hFront
  · obtain ⟨digit, hBelow, rfl⟩ :=
      exists_digit_of_isDigit (Nat.isDigit_of_mem_toDigits (by decide) (by decide) hBack)
    exact digitChar_mem_numberChars hBelow

end Decimal
end PlanLogic
