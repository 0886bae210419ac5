import PlanLogic.Proofs.Reading.Acceptance

/-!
# Slots of conditions that were read

In a condition that was read in a scope every slot belongs to a variable that is visible at its place, a
quantifier takes the slots that follow those of its scope, and the objects that the text names are no
variables.
-/

namespace PlanLogic

/-- A term of a scope with `size` variables. -/
def Term.WellScoped (size : Nat) : Term → Prop
  | .slot index => index < size
  | .object word => isVariable word = false

/-- An atom whose arguments are terms of a scope. -/
def Atom.WellScoped (size : Nat) (head : Atom) : Prop :=
  ∀ arg ∈ head.args, arg.WellScoped size

/-- An expression of a scope.  A constant stands for itself, whatever its name. -/
def Expression.WellScoped (size : Nat) : Expression → Prop
  | .number _ => True
  | .variable slot => slot < size
  | .constant _ => True
  | .function head => head.WellScoped size
  | .arithmetic _ left right => left.WellScoped size ∧ right.WellScoped size

namespace Condition

mutual

/-- A condition of a scope with `size` variables. -/
def WellScoped (size : Nat) : Condition → Prop
  | .conjunction parts => PartsWellScoped size parts
  | .disjunction parts => PartsWellScoped size parts
  | .negation part => WellScoped size part
  | .atom head => head.WellScoped size
  | .comparison _ left right => left.WellScoped size ∧ right.WellScoped size
  | .update _ target amount => target.WellScoped size ∧ amount.WellScoped size
  | .quantified bindings slots body =>
    slots = List.range' size bindings.length ∧ BodyWellScoped (size + bindings.length) body

/-- Conditions of a scope. -/
def PartsWellScoped (size : Nat) : List Condition → Prop
  | [] => True
  | part :: parts => WellScoped size part ∧ PartsWellScoped size parts

/-- A condition of a scope, which may be empty. -/
def BodyWellScoped (size : Nat) : Option Condition → Prop
  | none => True
  | some condition => WellScoped size condition

end

end Condition

/-! ## What is read is well scoped -/

theorem lt_size_of_slotOf? {scope : Scope} {name : String} {slot : Nat}
    (hSlot : scope.slotOf? name = some slot) :
    slot < scope.size := by
  have hName := Scope.nameAt?_of_slotOf? hSlot
  rw [Scope.nameAt?, Option.map_eq_some_iff] at hName
  obtain ⟨binding, hBinding, -⟩ := hName
  exact (List.getElem?_eq_some_iff.mp hBinding).1

theorem ArgumentOf.wellScoped {scope : Scope} {word : String} {arg : Term}
    (hArg : ArgumentOf scope word arg) :
    arg.WellScoped scope.size := by
  cases hArg with
  | slot _ hSlot => exact lt_size_of_slotOf? hSlot
  | object hWord => exact hWord.noVariable

theorem wellScoped_of_argumentsOf {scope : Scope} {name : String} {words : List String} {args : List Term}
    (hArgs : ArgumentsOf scope words args) : Atom.WellScoped scope.size ⟨name, args⟩ := by
  intro arg hMem
  show arg.WellScoped scope.size
  induction hArgs with
  | nil => exact absurd hMem List.not_mem_nil
  | cons hArg _ ih =>
      rcases List.mem_cons.mp hMem with hHere | hLater
      · rw [hHere]
        exact hArg.wellScoped
      · exact ih hLater

theorem DenotesExpression.wellScoped {scope : Scope} {words : List String} {expression : Expression}
    (hExpression : DenotesExpression scope words expression) : expression.WellScoped scope.size := by
  induction hExpression with
  | number _ _ => exact trivial
  | slot _ hSlot => exact lt_size_of_slotOf? hSlot
  | constant _ _ => exact trivial
  | function _ _ hArgs => exact wellScoped_of_argumentsOf hArgs
  | arithmetic _ _ _ ihLeft ihRight => exact ⟨ihLeft, ihRight⟩

namespace Condition

theorem partsWellScoped_append {size : Nat} {left right : List Condition} :
    PartsWellScoped size (left ++ right) ↔ PartsWellScoped size left ∧ PartsWellScoped size right := by
  induction left with
  | nil => rw [List.nil_append, PartsWellScoped, true_and]
  | cons part left ih => rw [List.cons_append, PartsWellScoped, PartsWellScoped, ih, and_assoc]

theorem partsWellScoped_toList {size : Nat} {part : Option Condition} :
    PartsWellScoped size part.toList ↔ BodyWellScoped size part := by
  cases part with
  | none => rfl
  | some part =>
      rw [Option.toList, PartsWellScoped, PartsWellScoped, BodyWellScoped, and_true]

mutual

theorem Denotes.wellScoped {scope : Scope} {words : List String} {condition : Option Condition} :
    Denotes scope words condition → BodyWellScoped scope.size condition
  | .empty => trivial
  | .conjunction _ hParts => DenoteParts.wellScoped hParts
  | .disjunction _ hParts => DenoteParts.wellScoped hParts
  | .negation _ hPart => by
      have hInner := Denotes.wellScoped hPart
      exact hInner
  | .atom _ _ hArgs => wellScoped_of_argumentsOf hArgs
  | .comparison _ _ hLeft hRight => ⟨hLeft.wellScoped, hRight.wellScoped⟩
  | .update _ _ hTarget hAmount => ⟨hTarget.wellScoped, hAmount.wellScoped⟩
  | .quantified _ _ _ hBody => by
      refine ⟨rfl, ?_⟩
      have hInner := Denotes.wellScoped hBody
      rwa [Scope.size_extend] at hInner

theorem DenoteParts.wellScoped {scope : Scope} {words : List String} {parts : List Condition} :
    DenoteParts scope words parts → PartsWellScoped scope.size parts
  | .nil => trivial
  | .cons hPart hParts => by
      rw [partsWellScoped_append, partsWellScoped_toList]
      exact ⟨Denotes.wellScoped hPart, DenoteParts.wellScoped hParts⟩

end

/-- A condition that is read from a text is well scoped. -/
theorem wellScoped_of_ofText {text : String} {scope : Scope} {condition : Option Condition}
    (hText : ofText text scope = .ok condition) : BodyWellScoped scope.size condition :=
  (ofText_eq_ok_iff.mp hText).wellScoped

end Condition
end PlanLogic
