/-!
# Placeholders

A variable that no object replaces keeps a placeholder: a question mark followed by its slot.
-/

namespace PlanLogic

/-- The placeholder of a slot. -/
def placeholder (slot : Nat) : String :=
  "?" ++ toString slot

/-- Whether a name stands for an object: it is not empty and no variable or placeholder. -/
def isGround (name : String) : Bool :=
  match name.toList with
  | [] => false
  | c :: _ => c != '?'

end PlanLogic
