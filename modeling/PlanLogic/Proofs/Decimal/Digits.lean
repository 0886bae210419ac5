import PlanLogic.Decimal.Layout
import PlanLogic.Decimal.Literal
import Mathlib.Algebra.Group.Nat.Defs

/-!
# Digits of a number

The digits that a number is written with give the number back, and a run of digit characters is read as its
digits.  A number in any layout is a run of digits, a fraction unless there is none to write, and an exponent
or nothing.
-/

namespace PlanLogic

namespace Text

theorem positional_append (start : Nat) (left right : List Nat) :
    positional start (left ++ right) = positional (positional start left) right := by
  rw [positional, positional, positional, List.foldl_append]

theorem positional_zeros (start count : Nat) :
    positional start (List.replicate count 0) = start * 10 ^ count := by
  induction count generalizing start with
  | zero => rw [List.replicate_zero, Nat.pow_zero, Nat.mul_one]; rfl
  | succ count ih =>
      rw [List.replicate_succ, positional, List.foldl_cons]
      have hRest := ih (10 * start + 0)
      rw [positional] at hRest
      rw [hRest, Nat.add_zero, Nat.pow_succ', Nat.mul_comm 10 start, Nat.mul_assoc]

/-- Zeros in front do not count. -/
theorem positional_zeros_append (count : Nat) (digits : List Nat) :
    positional 0 (List.replicate count 0 ++ digits) = positional 0 digits := by
  rw [positional_append, positional_zeros, Nat.zero_mul]

end Text

namespace Decimal

open Text

/-- A list of digits. -/
def AreDigits (places : List Nat) : Prop :=
  ∀ digit ∈ places, digit < 10

theorem AreDigits.append {left right : List Nat} (hLeft : AreDigits left) (hRight : AreDigits right) :
    AreDigits (left ++ right) := by
  intro digit hMem
  rcases List.mem_append.mp hMem with hIn | hIn
  · exact hLeft digit hIn
  · exact hRight digit hIn

theorem areDigits_zeros (count : Nat) : AreDigits (List.replicate count 0) := by
  intro digit hMem
  rw [List.eq_of_mem_replicate hMem]
  decide

/-! ## The digits of a number -/

theorem digitsOnto_spec (n : Nat) (rest : List Nat) :
    ∃ places, digitsOnto n rest = places ++ rest ∧ places ≠ [] ∧ AreDigits places ∧ positional 0 places = n := by
  induction n using Nat.strongRecOn generalizing rest with
  | ind n ih =>
      rw [digitsOnto]
      split
      · next hSmall =>
          refine ⟨[n], rfl, List.cons_ne_nil _ _, ?_, ?_⟩
          · intro digit hMem
            rw [List.mem_singleton.mp hMem]
            exact hSmall
          · show 10 * 0 + n = n
            omega
      · next hLarge =>
          obtain ⟨places, hPlaces, hSome, hDigits, hValue⟩ := ih (n / 10) (by omega) (n % 10 :: rest)
          refine ⟨places ++ [n % 10], ?_, by simp, hDigits.append ?_, ?_⟩
          · rw [hPlaces, List.append_assoc]
            rfl
          · intro digit hMem
            rw [List.mem_singleton.mp hMem]
            omega
          · rw [positional_append, hValue]
            show 10 * (n / 10) + n % 10 = n
            omega

theorem digits_spec (n : Nat) : digits n ≠ [] ∧ AreDigits (digits n) ∧ positional 0 (digits n) = n := by
  obtain ⟨places, hPlaces, hSome, hDigits, hValue⟩ := digitsOnto_spec n []
  rw [digits, hPlaces, List.append_nil]
  exact ⟨hSome, hDigits, hValue⟩

/-! ## Runs of digit characters -/

/-- A digit of ASCII is one of ten characters. -/
theorem exists_digit_of_isDigit {c : Char} (hDigit : c.isDigit = true) : ∃ digit < 10, c = digitChar digit := by
  rw [Char.isDigit, Bool.and_eq_true, decide_eq_true_eq, decide_eq_true_eq] at hDigit
  have hLow : 48 ≤ c.toNat := hDigit.1
  have hHigh : c.toNat ≤ 57 := hDigit.2
  refine ⟨c.toNat - 48, by omega, ?_⟩
  rw [digitChar, show '0'.toNat + (c.toNat - 48) = c.toNat from Nat.add_sub_cancel' hLow, Char.ofNat_toNat]

theorem digitValue?_digitChar {digit : Nat} (hDigit : digit < 10) :
    digitValue? (digitChar digit) = some digit :=
  digitValue?_ascii ⟨digit, hDigit⟩

theorem map_digitChar_zeros (count : Nat) :
    (List.replicate count 0).map digitChar = List.replicate count '0' := by
  rw [List.map_replicate]
  rfl

/-- A run of digit characters up to something else is read as its digits. -/
theorem takeDigits_append {run : List Char} {places : List Nat} (hRun : run.map digitValue? = places.map some)
    {rest : List Char} (hRest : takeDigits rest = ([], rest)) : takeDigits (run ++ rest) = (places, rest) := by
  induction run generalizing places with
  | nil =>
      rw [List.map_nil, eq_comm, List.map_eq_nil_iff] at hRun
      rw [hRun]
      exact hRest
  | cons c run ih =>
      cases places with
      | nil => exact absurd hRun (List.cons_ne_nil _ _)
      | cons digit places =>
          obtain ⟨hDigit, hMore⟩ := List.cons.inj hRun
          rw [List.cons_append, takeDigits, hDigit, ih hMore]

theorem takeDigits_map {places : List Nat} (hPlaces : AreDigits places) {rest : List Char}
    (hRest : takeDigits rest = ([], rest)) :
    takeDigits (places.map digitChar ++ rest) = (places, rest) := by
  refine takeDigits_append ?_ hRest
  rw [List.map_map]
  exact List.map_congr_left fun digit hMem => digitValue?_digitChar (hPlaces digit hMem)

theorem takeDigits_point (cs : List Char) : takeDigits ('.' :: cs) = ([], '.' :: cs) := by
  rw [takeDigits, show digitValue? '.' = none by decide]

theorem takeDigits_exponent (cs : List Char) : takeDigits ('e' :: cs) = ([], 'e' :: cs) := by
  rw [takeDigits, show digitValue? 'e' = none by decide]

/-- What is neither a plus nor a minus is no sign. -/
theorem takeSign_of_ne {c : Char} (hMinus : c ≠ '-') (hPlus : c ≠ '+') (cs : List Char) :
    takeSign (c :: cs) = (false, c :: cs) := by
  rw [takeSign.eq_3]
  · exact fun _ hSame => hMinus (List.cons.inj hSame).1
  · exact fun _ hSame => hPlus (List.cons.inj hSame).1

theorem dropLineFeed_of_notMem {cs : List Char} (hNone : '\n' ∉ cs) : dropLineFeed cs = cs :=
  if_neg fun hLast => hNone (List.mem_of_getLast? hLast)

/-- An exponent is read back. -/
theorem exponent?_exponentChars (width : Nat) (exponent : Int) :
    exponent? ('e' :: exponentChars width exponent) = some exponent := by
  obtain ⟨hSome, hDigits, hValue⟩ := digits_spec exponent.natAbs
  -- The padding is a run of zeros in front of the digits.
  obtain ⟨count, hCount⟩ : ∃ count, exponentChars width exponent =
      (if exponent < 0 then '-' else '+') ::
        (List.replicate count 0 ++ digits exponent.natAbs).map digitChar := by
    refine ⟨width - (digitChars exponent.natAbs).length, ?_⟩
    rw [exponentChars, List.map_append, map_digitChar_zeros]
    rfl
  have hEnd : takeDigits [] = ([], []) := rfl
  have hRun := takeDigits_map ((areDigits_zeros count).append hDigits) hEnd
  rw [List.append_nil] at hRun
  have hRunValue : positional 0 (List.replicate count 0 ++ digits exponent.natAbs) = exponent.natAbs := by
    rw [positional_zeros_append, hValue]
  have hRunSome : List.replicate count 0 ++ digits exponent.natAbs ≠ [] := by simp [hSome]
  generalize List.replicate count 0 ++ digits exponent.natAbs = run at hCount hRun hRunValue hRunSome
  cases run with
  | nil => exact absurd rfl hRunSome
  | cons digit more =>
      rw [hCount, exponent?, if_pos (.inl rfl)]
      split
      · next hNegative =>
          simp only [takeSign, hRun, hRunValue, if_true]
          congr 1
          omega
      · next hPositive =>
          simp only [takeSign, hRun, hRunValue, Bool.false_eq_true, if_false]
          congr 1
          omega

/-! ## The shape of a number -/

/-- What may follow the digits of a number, with the exponent that it stands for. -/
inductive IsTail : List Char → Int → Prop
  | none : IsTail [] 0
  | exponent (width : Nat) (exponent : Int) : IsTail ('e' :: exponentChars width exponent) exponent

/-- Digits, a fraction unless it is empty, and a tail. -/
def written (whole fraction : List Nat) (tail : List Char) : List Char :=
  whole.map digitChar ++ ((if fraction = [] then [] else '.' :: fraction.map digitChar) ++ tail)

/-- A number of this shape is read as its digits, moved by the length of the fraction. -/
theorem unsigned?_written {whole fraction : List Nat} {tail : List Char} {exponent : Int}
    (hSome : whole ≠ []) (hWhole : AreDigits whole) (hFraction : AreDigits fraction)
    (hTail : IsTail tail exponent) :
    unsigned? (written whole fraction tail) =
      some ⟨positional 0 (whole ++ fraction), exponent - fraction.length⟩ := by
  have hTailDigits : takeDigits tail = ([], tail) := by
    cases hTail with
    | none => rfl
    | exponent => exact takeDigits_exponent _
  have hTailExponent : exponent? tail = some exponent := by
    cases hTail with
    | none => rfl
    | exponent width => exact exponent?_exponentChars width exponent
  have hTailFraction : takeFraction tail = ([], tail) := by
    cases hTail with
    | none => rfl
    | exponent => rfl
  have hWholeSome : whole.isEmpty = false := by
    rw [List.isEmpty_eq_false_iff]
    exact hSome
  by_cases hNone : fraction = []
  · rw [written, if_pos hNone, List.nil_append, unsigned?, takeDigits_map hWhole hTailDigits]
    simp only [hWholeSome, hTailFraction, hTailExponent, hNone, Bool.false_and]
    rfl
  · have hRest : takeDigits ('.' :: fraction.map digitChar ++ tail) =
        ([], '.' :: fraction.map digitChar ++ tail) := takeDigits_point _
    have hFractionRead : takeFraction ('.' :: fraction.map digitChar ++ tail) = (fraction, tail) :=
      takeDigits_map hFraction hTailDigits
    rw [written, if_neg hNone, unsigned?, takeDigits_map hWhole hRest]
    simp only [hWholeSome, hFractionRead, hTailExponent, Bool.false_and]
    rfl

end Decimal
end PlanLogic
