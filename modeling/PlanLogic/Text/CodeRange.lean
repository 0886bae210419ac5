/-!
# Ranges of code points

Character classes of the Unicode standard are given as lists of ranges of code points.  This module holds
the ranges and membership in them; the classes themselves are tables in modules named for the property.
-/

namespace PlanLogic
namespace Text

/-- The code points from `first` to `last`, both included. -/
structure CodeRange where
  first : Nat
  last : Nat
deriving Repr, DecidableEq

namespace CodeRange

/-- Whether a code point lies in the range. -/
def contains (range : CodeRange) (code : Nat) : Bool :=
  decide (range.first ≤ code) && decide (code ≤ range.last)

theorem contains_iff (range : CodeRange) (code : Nat) :
    range.contains code = true ↔ range.first ≤ code ∧ code ≤ range.last := by
  simp [contains]

end CodeRange

/-- Whether a character lies in one of the ranges. -/
def inRanges (ranges : List CodeRange) (c : Char) : Bool :=
  ranges.any fun range => range.contains c.toNat

theorem inRanges_iff (ranges : List CodeRange) (c : Char) :
    inRanges ranges c = true ↔
      ∃ range ∈ ranges, range.first ≤ c.toNat ∧ c.toNat ≤ range.last := by
  simp [inRanges, CodeRange.contains_iff]

end Text
end PlanLogic
