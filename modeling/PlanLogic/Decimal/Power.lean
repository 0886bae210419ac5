/-!
# Powers of two and ten

The scales of binary and of decimal numbers.
-/

namespace PlanLogic
namespace Decimal

/-- A power of two. -/
def powerOfTwo (n : Nat) : Nat :=
  Nat.pow 2 n

/-- A power of ten. -/
def powerOfTen (n : Nat) : Nat :=
  Nat.pow 10 n

theorem powerOfTwo_succ (n : Nat) : powerOfTwo (n + 1) = 2 * powerOfTwo n := by
  show Nat.pow 2 n * 2 = 2 * Nat.pow 2 n
  exact Nat.mul_comm _ _

theorem powerOfTen_succ (n : Nat) : powerOfTen (n + 1) = 10 * powerOfTen n := by
  show Nat.pow 10 n * 10 = 10 * Nat.pow 10 n
  exact Nat.mul_comm _ _

/-- No power of two is zero, so dividing by one loses nothing to the rule for zero. -/
theorem powerOfTwo_pos (n : Nat) : 0 < powerOfTwo n := by
  induction n with
  | zero => decide
  | succ n ih =>
      have hStep := powerOfTwo_succ n
      omega

/-- No power of ten is zero. -/
theorem powerOfTen_pos (n : Nat) : 0 < powerOfTen n := by
  induction n with
  | zero => decide
  | succ n ih =>
      have hStep := powerOfTen_succ n
      omega

end Decimal
end PlanLogic
