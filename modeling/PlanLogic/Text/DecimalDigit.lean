import PlanLogic.Text.CodeRange

/-!
# Decimal digits

A decimal digit is a character of the Unicode category `Nd`.  Such characters come in runs of ten in
increasing order of value, so the table lists only the zero of each run.
-/

namespace PlanLogic
namespace Text

/-- The code points of the decimal digits with value zero. -/
def digitZeros : List Nat :=
  [0x0030, 0x0660, 0x06F0, 0x07C0, 0x0966, 0x09E6, 0x0A66, 0x0AE6, 0x0B66, 0x0BE6, 0x0C66, 0x0CE6,
   0x0D66, 0x0DE6, 0x0E50, 0x0ED0, 0x0F20, 0x1040, 0x1090, 0x17E0, 0x1810, 0x1946, 0x19D0, 0x1A80,
   0x1A90, 0x1B50, 0x1BB0, 0x1C40, 0x1C50, 0xA620, 0xA8D0, 0xA900, 0xA9D0, 0xA9F0, 0xAA50, 0xABF0,
   0xFF10, 0x104A0, 0x10D30, 0x11066, 0x110F0, 0x11136, 0x111D0, 0x112F0, 0x11450, 0x114D0,
   0x11650, 0x116C0, 0x11730, 0x118E0, 0x11950, 0x11C50, 0x11D50, 0x11DA0, 0x16A60, 0x16AC0,
   0x16B50, 0x1D7CE, 0x1D7D8, 0x1D7E2, 0x1D7EC, 0x1D7F6, 0x1E140, 0x1E2F0, 0x1E950, 0x1FBF0]

/-- The value of a decimal digit, and nothing for any other character. -/
def digitValue? (c : Char) : Option Nat :=
  (digitZeros.find? fun first => decide (first ≤ c.toNat) && decide (c.toNat < first + 10)).map
    fun first => c.toNat - first

/-- Whether a character is a decimal digit. -/
def isDigit (c : Char) : Bool :=
  (digitValue? c).isSome

theorem digitValue?_lt {c : Char} {value : Nat} (hDigit : digitValue? c = some value) : value < 10 := by
  simp only [digitValue?, Option.map_eq_some_iff] at hDigit
  obtain ⟨first, hFound, hValue⟩ := hDigit
  have hRange := List.find?_some hFound
  simp only [Bool.and_eq_true, decide_eq_true_eq] at hRange
  omega

/-- The digits of ASCII have their usual values. -/
theorem digitValue?_ascii (value : Fin 10) :
    digitValue? (Char.ofNat ('0'.toNat + value)) = some value.val := by
  revert value
  decide

/-- The number written by a run of digit values, most significant first, continuing from `start`. -/
def positional (start : Nat) (digits : List Nat) : Nat :=
  digits.foldl (fun value digit => 10 * value + digit) start

end Text
end PlanLogic
