/-!
# Signed positions

A signed position counts from the start of a list when it is not negative, and from the end otherwise, where
`-1` is the last element.
-/

namespace PlanLogic

/-- The position from the start that a signed position stands for in a list of the given length. -/
def signedIndex? (length : Nat) (position : Int) : Option Nat :=
  if 0 ≤ position then
    if position < length then some position.toNat else none
  else if -length ≤ position then
    some (length + position).toNat
  else
    none

/-- The element at a signed position. -/
def atSigned? (xs : List α) (position : Int) : Option α :=
  (signedIndex? xs.length position).bind fun index => xs[index]?

end PlanLogic
