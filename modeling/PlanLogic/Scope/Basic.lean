import PlanLogic.SignedIndex

/-!
# Scopes

A scope is the list of the variables that are visible at a place, each with its type.  The slot of a variable
is its position in that list.  An inner scope is the outer one followed by the inner variables, so a slot
means the same variable in every scope built from the one that introduced it.
-/

namespace PlanLogic

/-- A name with its type. -/
structure Binding where
  name : String
  type : String
deriving Repr, DecidableEq

/-- The type of a name that is given none. -/
def Binding.defaultType : String := "object"

/-- The visible variables, outermost first. -/
structure Scope where
  bindings : List Binding
deriving Repr, DecidableEq

namespace Scope

/-- The scope without variables. -/
def empty : Scope := ⟨[]⟩

/-- The number of variables, which is the slot that the next variable gets. -/
def size (scope : Scope) : Nat :=
  scope.bindings.length

/-- The scope with one more innermost variable. -/
def push (scope : Scope) (binding : Binding) : Scope :=
  ⟨scope.bindings ++ [binding]⟩

/-- The scope with further innermost variables. -/
def extend (scope : Scope) (inner : List Binding) : Scope :=
  ⟨scope.bindings ++ inner⟩

/-- The position of the last name in a list that equals `name`. -/
def lastSlot? (name : String) : List Binding → Option Nat
  | [] => none
  | binding :: bindings =>
    match lastSlot? name bindings with
    | some slot => some (slot + 1)
    | none => if binding.name = name then some 0 else none

/-- The slot of a name; an inner variable hides an outer one of the same name. -/
def slotOf? (scope : Scope) (name : String) : Option Nat :=
  lastSlot? name scope.bindings

/-- The name in a slot. -/
def nameAt? (scope : Scope) (slot : Nat) : Option String :=
  scope.bindings[slot]?.map Binding.name

@[simp] theorem size_extend (scope : Scope) (inner : List Binding) :
    (scope.extend inner).size = scope.size + inner.length := by
  simp [size, extend]

/-- A slot that is found lies in the scope and holds the name. -/
theorem nameAt?_of_slotOf? {scope : Scope} {name : String} {slot : Nat}
    (hSlot : scope.slotOf? name = some slot) : scope.nameAt? slot = some name := by
  obtain ⟨bindings⟩ := scope
  simp only [slotOf?, nameAt?] at *
  induction bindings generalizing slot with
  | nil => simp [lastSlot?] at hSlot
  | cons binding bindings ih =>
      unfold lastSlot? at hSlot
      split at hSlot
      · next inner hInner =>
          simp only [Option.some.injEq] at hSlot
          subst hSlot
          simpa using ih hInner
      · split at hSlot
        · next hName =>
            simp only [Option.some.injEq] at hSlot
            subst hSlot
            simp [hName]
        · simp at hSlot

end Scope
end PlanLogic
