import PlanLogic.Proofs.Decimal.Digits
import PlanLogic.Proofs.Decimal.Nearest

/-!
# Numbers read back

The text of a finite number, in any layout, is a literal of that number.  A layout may move the digits of the
shortest decimal past the point or behind it, but it keeps its value; and whatever has this value is rounded
to the number.
-/

namespace PlanLogic
namespace Decimal

open Text

/-! ## Layouts keep the value -/

/-- Zeros at the end and a smaller exponent make up for each other. -/
theorem value_shift (digits shift : Nat) (exponent : Int) :
    (Scaled.mk (digits * 10 ^ shift) (exponent - shift)).value = (Scaled.mk digits exponent).value := by
  rw [Scaled.value, Scaled.value, zpow_sub₀ (by norm_num), zpow_natCast]
  push_cast
  field_simp

/-- A text that writes a decimal with some zeros at its end. -/
structure Writes (cs : List Char) (digits : Nat) (exponent : Int) : Prop where
  shape : ∃ whole fraction tail power, cs = written whole fraction tail ∧ whole ≠ [] ∧ AreDigits whole ∧
    AreDigits fraction ∧ IsTail tail power ∧
    ∃ shift : Nat, positional 0 (whole ++ fraction) = digits * 10 ^ shift ∧
      power - fraction.length = exponent - shift

/-- A number without an exponent is written with its own digits. -/
theorem writes_positionalChars (layout : Layout) {places : List Nat} (hSome : places ≠ [])
    (hPlaces : AreDigits places) (point : Int) :
    Writes (positionalChars layout (places.map digitChar) point) (positional 0 places)
      (point - places.length) := by
  unfold positionalChars
  split
  · next hPoint =>
      -- The point stands before all the digits, with zeros after it.
      refine ⟨[0], List.replicate (-point).toNat 0 ++ places, [], 0, ?_, List.cons_ne_nil _ _,
        areDigits_zeros 1, (areDigits_zeros _).append hPlaces, .none, 0, ?_, ?_⟩
      · rw [written, if_neg (by simp [hSome]), List.map_append, map_digitChar_zeros, List.append_nil]
        rfl
      · rw [positional_append]
        show positional 0 (List.replicate (-point).toNat 0 ++ places) = _
        rw [positional_zeros_append, Nat.pow_zero, Nat.mul_one]
      · rw [List.length_append, List.length_replicate]
        omega
  next hPoint =>
  split
  · next hInside =>
      -- The point stands between two digits.
      rw [List.length_map] at hInside
      have hTake : places.take point.toNat ≠ [] := by
        rw [Ne, List.take_eq_nil_iff]
        rintro (hZero | hNone)
        · omega
        · exact hSome hNone
      have hDrop : places.drop point.toNat ≠ [] := by
        rw [Ne, List.drop_eq_nil_iff]
        omega
      refine ⟨places.take point.toNat, places.drop point.toNat, [], 0, ?_, hTake,
        fun digit hMem => hPlaces digit (List.mem_of_mem_take hMem),
        fun digit hMem => hPlaces digit (List.mem_of_mem_drop hMem), .none, 0, ?_, ?_⟩
      · rw [written, if_neg hDrop, List.append_nil, List.map_take, List.map_drop]
      · rw [List.take_append_drop, Nat.pow_zero, Nat.mul_one]
      · rw [List.length_drop]
        omega
  · next hOutside =>
      -- Zeros fill the places up to the point; the layout says whether a fraction is still written.
      rw [List.length_map] at hOutside ⊢
      have hZeros := areDigits_zeros (point.toNat - places.length)
      split
      · refine ⟨places ++ List.replicate (point.toNat - places.length) 0, [0], [], 0, ?_, by simp [hSome],
          hPlaces.append hZeros, areDigits_zeros 1, .none, point.toNat - places.length + 1, ?_, ?_⟩
        · rw [written, if_neg (List.cons_ne_nil _ _), List.map_append, map_digitChar_zeros, List.append_nil]
          rfl
        · rw [positional_append, positional_append, positional_zeros]
          show 10 * (positional 0 places * 10 ^ _) + 0 = _
          rw [Nat.pow_succ, Nat.add_zero, Nat.mul_comm, Nat.mul_assoc]
        · rw [List.length_singleton]
          omega
      · refine ⟨places ++ List.replicate (point.toNat - places.length) 0, [], [], 0, ?_, by simp [hSome],
          hPlaces.append hZeros, fun _ hMem => absurd hMem List.not_mem_nil, .none,
          point.toNat - places.length, ?_, ?_⟩
        · rw [written, if_pos rfl, List.map_append, map_digitChar_zeros]
          rfl
        · rw [List.append_nil, positional_append, positional_zeros]
        · rw [List.length_nil]
          omega

/-- A number with an exponent is written with its own digits. -/
theorem writes_scientificChars (layout : Layout) {places : List Nat} (hSome : places ≠ [])
    (hPlaces : AreDigits places) (exponent : Int) :
    Writes (scientificChars layout (places.map digitChar) exponent) (positional 0 places)
      (exponent - places.length + 1) := by
  cases places with
  | nil => exact absurd rfl hSome
  | cons digit more =>
      refine ⟨[digit], more, 'e' :: exponentChars layout.exponentWidth exponent, exponent, ?_,
        List.cons_ne_nil _ _, ?_, fun other hMem => hPlaces other (List.mem_cons_of_mem digit hMem),
        .exponent _ _, 0, ?_, ?_⟩
      · cases more with
        | nil => rfl
        | cons => rfl
      · intro other hMem
        rw [List.mem_singleton.mp hMem]
        exact hPlaces digit List.mem_cons_self
      · rw [Nat.pow_zero, Nat.mul_one]
        rfl
      · rw [List.length_cons]
        omega

/-- A decimal is written with its own digits in every layout. -/
theorem writes_scaled (layout : Layout) (s : Scaled) : Writes (layout.scaled s) s.digits s.exponent := by
  obtain ⟨hSome, hPlaces, hValue⟩ := digits_spec s.digits
  have hLength : (digitChars s.digits).length = (digits s.digits).length := List.length_map _
  unfold Layout.scaled
  simp only
  rw [hLength, digitChars]
  split
  · have hWrites := writes_positionalChars layout hSome hPlaces
      ((digits s.digits).length + s.exponent - 1 + 1)
    rwa [hValue, show ((digits s.digits).length : Int) + s.exponent - 1 + 1 - (digits s.digits).length =
      s.exponent by omega] at hWrites
  · have hWrites := writes_scientificChars layout hSome hPlaces ((digits s.digits).length + s.exponent - 1)
    rwa [hValue, show ((digits s.digits).length : Int) + s.exponent - 1 - (digits s.digits).length + 1 =
      s.exponent by omega] at hWrites

/-! ## Characters of a number -/

/-- The characters that numbers are written with. -/
def numberChars : List Char :=
  ['0', '1', '2', '3', '4', '5', '6', '7', '8', '9', '.', 'e', '+', '-']

theorem digitChar_mem_numberChars {digit : Nat} (hDigit : digit < 10) : digitChar digit ∈ numberChars := by
  have hAll : ∀ digit : Fin 10, digitChar digit ∈ numberChars := by decide
  exact hAll ⟨digit, hDigit⟩

/-- A digit is no sign. -/
theorem takeSign_digitChar {digit : Nat} (hDigit : digit < 10) (cs : List Char) :
    takeSign (digitChar digit :: cs) = (false, digitChar digit :: cs) := by
  have hAll : ∀ digit : Fin 10, digitChar digit ≠ '-' ∧ digitChar digit ≠ '+' := by decide
  obtain ⟨hMinus, hPlus⟩ := hAll ⟨digit, hDigit⟩
  exact takeSign_of_ne hMinus hPlus cs

theorem mem_map_digitChar {places : List Nat} (hPlaces : AreDigits places) {c : Char}
    (hMem : c ∈ places.map digitChar) : c ∈ numberChars := by
  obtain ⟨digit, hDigit, rfl⟩ := List.mem_map.mp hMem
  exact digitChar_mem_numberChars (hPlaces digit hDigit)

theorem mem_exponentChars {width : Nat} {exponent : Int} {c : Char}
    (hMem : c ∈ exponentChars width exponent) : c ∈ numberChars := by
  rw [exponentChars] at hMem
  rcases List.mem_cons.mp hMem with hSign | hPlaces
  · rw [hSign]
    split <;> decide
  rcases List.mem_append.mp hPlaces with hZero | hDigit
  · rw [List.eq_of_mem_replicate hZero]
    decide
  · exact mem_map_digitChar (digits_spec _).2.1 hDigit

theorem Writes.mem_numberChars {cs : List Char} {digits : Nat} {exponent : Int}
    (hWrites : Writes cs digits exponent) {c : Char} (hMem : c ∈ cs) : c ∈ numberChars := by
  obtain ⟨whole, fraction, tail, power, rfl, -, hWhole, hFraction, hTail, -⟩ := hWrites
  rw [written] at hMem
  rcases List.mem_append.mp hMem with hIn | hMem
  · exact mem_map_digitChar hWhole hIn
  rcases List.mem_append.mp hMem with hIn | hIn
  · split at hIn
    · exact absurd hIn List.not_mem_nil
    rcases List.mem_cons.mp hIn with rfl | hIn
    · decide
    · exact mem_map_digitChar hFraction hIn
  · cases hTail with
    | none => exact absurd hIn List.not_mem_nil
    | exponent width =>
        rcases List.mem_cons.mp hIn with rfl | hIn
        · decide
        · exact mem_exponentChars hIn

/-! ## Reading back -/

theorem Writes.takeSign {cs : List Char} {digits : Nat} {exponent : Int}
    (hWrites : Writes cs digits exponent) : takeSign cs = (false, cs) := by
  obtain ⟨whole, fraction, tail, power, rfl, hSome, hWhole, -⟩ := hWrites
  cases whole with
  | nil => exact absurd rfl hSome
  | cons digit whole => exact takeSign_digitChar (hWhole digit List.mem_cons_self) _

theorem Writes.unsigned? {cs : List Char} {digits : Nat} {exponent : Int}
    (hWrites : Writes cs digits exponent) :
    ∃ s, unsigned? cs = some s ∧ s.value = (Scaled.mk digits exponent).value := by
  obtain ⟨whole, fraction, tail, power, rfl, hSome, hWhole, hFraction, hTail, shift, hDigits, hPower⟩ :=
    hWrites
  refine ⟨_, unsigned?_written hSome hWhole hFraction hTail, ?_⟩
  rw [hDigits, hPower, value_shift]

/-- A decimal is zero if and only if it has no digits other than zero. -/
theorem value_eq_zero_iff {s : Scaled} : s.value = 0 ↔ s.digits = 0 := by
  have hPower : (10 : ℚ) ^ s.exponent ≠ 0 := zpow_ne_zero _ (by norm_num)
  rw [Scaled.value, mul_eq_zero, Nat.cast_eq_zero]
  exact or_iff_left hPower

/-- Whatever has the value of the shortest decimal of a number is rounded to the number. -/
theorem nearest_of_value_eq {mantissa : Nat} {unit : Int} (hParts : IsBinary64 mantissa unit) {s : Scaled}
    (hValue : s.value = (if mantissa = 0 then ⟨0, 0⟩ else shortest mantissa unit : Scaled).value)
    (negative : Bool) : nearest negative s = .finite negative mantissa unit := by
  split at hValue
  · next hZero =>
      have hUnit : unit = leastExponent := by
        by_contra hOther
        have hFull := hParts.full_of_ne hOther
        omega
      have hDigits : s.digits = 0 := by
        rw [← value_eq_zero_iff, hValue, value_eq_zero_iff]
      rw [nearest, if_pos hDigits, hZero, hUnit]
  · next hPositive =>
      have hMantissa : 0 < mantissa := Nat.pos_of_ne_zero hPositive
      refine nearest_of_inInterval hParts hMantissa ?_ negative
      rw [hValue]
      exact inInterval_shortest hMantissa unit

/-- The text of a finite number holds no other characters than those of numbers, and at least one. -/
theorem text_chars (layout : Layout) {x : Float} (hFinite : x.isFinite = true) :
    (layout.text x).toList ≠ [] ∧ ∀ c ∈ (layout.text x).toList, c ∈ numberChars := by
  obtain ⟨negative, mantissa, unit, hParts, -⟩ := ofFloat_finite hFinite
  have hWrites := writes_scaled layout (if mantissa = 0 then ⟨0, 0⟩ else shortest mantissa unit)
  rw [Layout.text, String.toList_ofList, hParts, Layout.parts]
  constructor
  · obtain ⟨whole, fraction, tail, power, hShape, hSome, -⟩ := hWrites
    rw [Layout.magnitude, hShape, written]
    simp [hSome]
  · intro c hMem
    rcases List.mem_append.mp hMem with hSign | hIn
    · split at hSign
      · rw [List.mem_singleton.mp hSign]
        decide
      · exact absurd hSign List.not_mem_nil
    · exact hWrites.mem_numberChars hIn

/-- A text of the characters of numbers has no line feed to drop. -/
theorem dropLineFeed_of_numberChars {cs : List Char} (hChars : ∀ c ∈ cs, c ∈ numberChars) : dropLineFeed cs = cs :=
  dropLineFeed_of_notMem fun hMem => absurd (hChars _ hMem) (by decide)

/-- The text of a finite number is read back as the number. -/
theorem literal?_text (layout : Layout) {x : Float} (hFinite : x.isFinite = true) :
    literal? (layout.text x).toList = some x := by
  obtain ⟨negative, mantissa, unit, hParts, hBinary, hBack⟩ := ofFloat_finite hFinite
  have hWrites := writes_scaled layout (if mantissa = 0 then ⟨0, 0⟩ else shortest mantissa unit)
  obtain ⟨s, hRead, hValue⟩ := hWrites.unsigned?
  have hNearest := nearest_of_value_eq hBinary hValue negative
  have hSign : takeSign ((if negative then ['-'] else []) ++ layout.magnitude mantissa unit) =
      (negative, layout.magnitude mantissa unit) := by
    cases negative with
    | true => rfl
    | false => exact hWrites.takeSign
  have hRead' : unsigned? (layout.magnitude mantissa unit) = some s := hRead
  rw [literal?, dropLineFeed_of_numberChars (text_chars layout hFinite).2, Layout.text, String.toList_ofList, hParts,
    Layout.parts, hSign]
  simp only [hRead', Option.map_some, hNearest, hBack]

end Decimal
end PlanLogic
