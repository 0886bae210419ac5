import PlanLogic.Proofs.Compilation.Outcomes
import PlanLogic.Proofs.Decimal.Sizes
import PlanLogic.Proofs.Effects.Accounts
import PlanLogic.Proofs.Evaluation.Locality

/-!
# Updates as assignments

Changing a function by an amount is assigning it the result of an arithmetic operation on its old value and the
amount.  Both read the old value and the amount in the same state and write what they compute, so the only question
is whether they compute the same.  They do, except where an update scales down by what is not a number: an update
refuses a divisor whose size is at most the smallest one, an expression one whose size is not above it, and what is
not a number is neither.
-/

namespace PlanLogic

deriving instance DecidableEq for Outcome

/-- The operation by which an update changes the old value; an assignment drops the old value. -/
def Update.arithmetic? : Update → Option Arithmetic
  | .assign => none
  | .increase => some .add
  | .decrease => some .subtract
  | .scaleUp => some .multiply
  | .scaleDown => some .divide

/-! ## New values -/

/-- A number is refused as a divisor by both or by neither. -/
theorem compute?_scaleDown_eq {amount : Float} (hNumber : amount.isNaN = false) (old : Float) :
    Update.scaleDown.compute? old amount = Arithmetic.divide.compute? old amount := by
  have hAmount : amount.abs.isNaN = false := (Decimal.isNaN_abs amount).trans hNumber
  have hBound : smallestDivisor.isNaN = false := by decide +kernel
  have hOrder := Decimal.not_le_iff_lt hAmount hBound
  rw [Update.compute?, Arithmetic.compute?]
  by_cases hSmall : amount.abs ≤ smallestDivisor
  · rw [if_pos hSmall, if_neg fun hLarge => hOrder.mpr hLarge hSmall]
  · rw [if_neg hSmall, if_pos (hOrder.mp hSmall)]

/-- What is not a number is refused as a divisor by the operation only. -/
theorem compute?_scaleDown_of_isNaN {amount : Float} (hNone : amount.isNaN = true) (old : Float) :
    Update.scaleDown.compute? old amount = some (old / amount) ∧ Arithmetic.divide.compute? old amount = none := by
  have hAmount : amount.abs.isNaN = true := (Decimal.isNaN_abs amount).trans hNone
  obtain ⟨hNotSmall, hNotLarge⟩ := Decimal.not_le_and_not_lt_of_isNaN hAmount smallestDivisor
  rw [Update.compute?, Arithmetic.compute?, if_neg hNotSmall, if_neg hNotLarge]
  exact ⟨rfl, rfl⟩

variable {op : Update} {arithmetic : Arithmetic}

/-- An update computes what its operation computes, unless it scales down by what is not a number. -/
theorem compute?_eq_of_arithmetic? (hOp : op.arithmetic? = some arithmetic) {amount : Float}
    (hNumber : op = .scaleDown → amount.isNaN = false) (old : Float) :
    op.compute? old amount = arithmetic.compute? old amount := by
  cases op with
  | assign => exact absurd hOp.symm (Option.some_ne_none arithmetic)
  | scaleDown =>
      obtain rfl := Option.some.inj hOp
      exact compute?_scaleDown_eq (hNumber rfl) old
  | _ =>
      obtain rfl := Option.some.inj hOp
      rfl

namespace Interpreter

variable (naming : Naming ε)

/-- What an update does once its new value is known, if there is one. -/
def conclude (commit : Bool) (head : Fact) (state : Snapshot) : Option Float → Outcome × Snapshot
  | none => (.failed, state)
  | some new => if commit then (⟨state.assigns head, false, new⟩, state.write ⟨head, new⟩) else (.computed new, state)

theorem update_eq_conclude (commit : Bool) (env : ε) (op : Update) (target : Atom) (amount : Expression)
    (state : Snapshot) :
    update naming commit env op target amount state =
      conclude commit (naming.fact env target) state (newValue? naming env op target amount state) := by
  rw [update, newValue?]
  split
  · cases op.compute? _ _ with
    | none => rfl
    | some new => rfl
  · rfl

/-- What is not a number is written as such, so it is told from a failure also if it could not be written. -/
theorem conclude_ne_of_isNaN (commit : Bool) (head : Fact) (state : Snapshot) {new : Float}
    (hNone : new.isNaN = true) : conclude commit head state (some new) ≠ conclude commit head state none := by
  have hZero : new ≠ 0 := by
    rintro rfl
    exact absurd hNone (by decide +kernel)
  intro hSame
  have hValue := congrArg (fun result : Outcome × Snapshot => result.1.value) hSame
  cases commit with
  | false => exact hZero hValue
  | true => exact hZero hValue

/-- The new value by an assignment of an operation on the old value and an amount. -/
theorem newValue?_assign (env : ε) (arithmetic : Arithmetic) (target : Atom) (amount : Expression)
    (state : Snapshot) :
    newValue? naming env .assign target (.arithmetic arithmetic (.function target) amount) state =
      let old := value naming env state (.function target)
      let change := value naming env state amount
      if old.success && change.success then arithmetic.compute? old.value change.value else none := by
  have hChange : value naming env state (.arithmetic arithmetic (.function target) amount) =
      if (value naming env state (.function target)).success && (value naming env state amount).success then
        ((arithmetic.compute? (value naming env state (.function target)).value
          (value naming env state amount).value).map Outcome.computed).getD .failed
      else
        .failed := rfl
  rw [newValue?, hChange]
  generalize value naming env state (.function target) = old
  generalize value naming env state amount = change
  dsimp only
  by_cases hOperands : (old.success && change.success) = true
  · rw [if_pos hOperands, if_pos hOperands]
    have hOld : old.success = true := (Bool.and_eq_true_iff.mp hOperands).1
    cases arithmetic.compute? old.value change.value with
    | none => simp [Outcome.failed]
    | some new => simp [Outcome.computed, Update.compute?, hOld]
  · rw [if_neg hOperands, if_neg hOperands]
    simp [Outcome.failed]

/-- An update is the assignment of its operation, unless it scales down by what is not a number. -/
theorem update_eq_assign_iff (hOp : op.arithmetic? = some arithmetic) (commit : Bool) (env : ε) (target : Atom)
    (amount : Expression) (state : Snapshot) :
    update naming commit env op target amount state =
        update naming commit env .assign target (.arithmetic arithmetic (.function target) amount) state ↔
      ¬ (op = .scaleDown ∧ (value naming env state (.function target)).success = true ∧
        (value naming env state amount).success = true ∧ (value naming env state amount).value.isNaN = true) := by
  rw [update_eq_conclude, update_eq_conclude, newValue?_assign, newValue?]
  generalize value naming env state (.function target) = old
  generalize value naming env state amount = change
  dsimp only
  by_cases hOperands : (old.success && change.success) = true
  · rw [if_pos hOperands, if_pos hOperands]
    obtain ⟨hOld, hChange⟩ := Bool.and_eq_true_iff.mp hOperands
    constructor
    · rintro hSame ⟨rfl, -, -, hNone⟩
      obtain rfl := Option.some.inj hOp
      obtain ⟨hScaled, hDivided⟩ := compute?_scaleDown_of_isNaN hNone old.value
      rw [hScaled, hDivided] at hSame
      exact conclude_ne_of_isNaN commit _ state (Decimal.isNaN_div_right hNone old.value) hSame
    · intro hNumber
      rw [compute?_eq_of_arithmetic? hOp fun hScale => ?_]
      exact Bool.eq_false_of_not_eq_true fun hNone => hNumber ⟨hScale, hOld, hChange, hNone⟩
  · rw [if_neg hOperands, if_neg hOperands]
    simp only [true_iff]
    rintro ⟨-, hOld, hChange, -⟩
    exact hOperands (Bool.and_eq_true_iff.mpr ⟨hOld, hChange⟩)

end Interpreter

/-! ## Effects that were read -/

open Interpreter

/-- Checking the tree of an expression alone gives its value. -/
theorem seen_pushExpression (state : Snapshot) (expression : Expression) (objects : List String) :
    (state.seen false (Tree.empty.pushExpression expression objects) 0 false).1 =
      value Naming.renaming (Term.lowered objects) state expression := by
  have hLayout : Tree.empty.pushExpression expression objects =
      ⟨(expression.outline (Term.lowered objects)).layout 0⟩ := by
    rw [expression.layout_outline]
    rfl
  rw [hLayout]
  generalize hOutline : expression.outline (Term.lowered objects) = outline
  have hSize : (Tree.mk (outline.layout 0)).size = outline.size := Outline.length_layout 0 outline
  have hSome : (Tree.mk (outline.layout 0)).isEmpty = false := by
    rw [Tree.isEmpty, List.isEmpty_eq_false_iff, ← List.length_pos_iff]
    exact Nat.lt_of_lt_of_eq outline.size_pos hSize.symm
  show ((evaluate false (Tree.mk (outline.layout 0)) 0 false : Snapshot.Run Outcome) (.start state)).1 = _
  rw [evaluate, hSome]
  refine congrArg Prod.fst (Evaluation.shows_value false _ (Term.lowered objects) false expression _ 0 ?_ ?_
    (.start state))
  · rw [hOutline]
    omega
  · rw [hOutline]
    exact Tree.hasBlock_layout outline

/-- The words of an operator or keyword with two operands. -/
def operationWords (name : String) (left right : List String) : List String :=
  "(" :: name :: (left ++ right ++ [")"])

section Reading

variable {scope : Scope} {targetTokens amountTokens : List Token} {target : Atom} {amount : Expression}
  (hTarget : Condition.readExpression scope targetTokens = .ok (.function target) [])
  (hAmount : Condition.readExpression scope amountTokens = .ok amount [])

include hTarget hAmount

theorem ofText_update {text : String}
    (hText : (Token.ofText text).map Token.text =
      operationWords op.symbol (targetTokens.map Token.text) (amountTokens.map Token.text)) :
    Condition.ofText text scope = .ok (some (.update op target amount)) := by
  rw [Condition.ofText_eq_ok_iff, hText]
  exact .update op (.refl _) (Reading.readExpression_eq_ok_iff.mp hTarget)
    (Reading.readExpression_eq_ok_iff.mp hAmount)

theorem ofText_assign {text : String}
    (hText : (Token.ofText text).map Token.text =
      operationWords "assign" (targetTokens.map Token.text)
        (operationWords arithmetic.symbol (targetTokens.map Token.text) (amountTokens.map Token.text))) :
    Condition.ofText text scope =
      .ok (some (.update .assign target (.arithmetic arithmetic (.function target) amount))) := by
  have hWords := Reading.readExpression_eq_ok_iff.mp hTarget
  rw [Condition.ofText_eq_ok_iff, hText]
  exact .update .assign (.refl _) hWords
    (.arithmetic arithmetic hWords (Reading.readExpression_eq_ok_iff.mp hAmount))

/-- An update of a function by an amount and the assignment of the operation on both are read from their texts.
Evaluating one, with any names put in for the variables of the scope, gives the outcome that evaluating the other
gives and leaves the snapshot that the other leaves, unless the update scales a function that has a number down by
an amount that can be computed and is not a number; then the two differ. -/
theorem evaluate_update_eq_assign_iff (hOp : op.arithmetic? = some arithmetic) {text assignment : String}
    (hText : (Token.ofText text).map Token.text =
      operationWords op.symbol (targetTokens.map Token.text) (amountTokens.map Token.text))
    (hAssignment : (Token.ofText assignment).map Token.text =
      operationWords "assign" (targetTokens.map Token.text)
        (operationWords arithmetic.symbol (targetTokens.map Token.text) (amountTokens.map Token.text)))
    (objects : List String) (commit : Bool) (observed : Observed Snapshot) :
    let changed := Condition.update op target amount
    let assigned := Condition.update .assign target (.arithmetic arithmetic (.function target) amount)
    let old := (observed.state.seen false (Tree.empty.pushExpression (.function target) objects) 0 false).1
    let change := (observed.state.seen false (Tree.empty.pushExpression amount objects) 0 false).1
    Condition.ofText text scope = .ok (some changed) ∧
      Condition.ofText assignment scope = .ok (some assigned) ∧
      (Snapshot.Run.result (evaluate commit (Tree.ofCondition (some changed) objects) 0 false) observed =
          Snapshot.Run.result (evaluate commit (Tree.ofCondition (some assigned) objects) 0 false) observed ↔
        ¬ (op = .scaleDown ∧ old.success = true ∧ change.success = true ∧ change.value.isNaN = true)) := by
  intro changed assigned old change
  have hChanged : Condition.ofText text scope = .ok (some changed) := ofText_update hTarget hAmount hText
  have hAssigned : Condition.ofText assignment scope = .ok (some assigned) :=
    ofText_assign hTarget hAmount hAssignment
  refine ⟨hChanged, hAssigned, ?_⟩
  rw [result_evaluate (Condition.wellScoped_of_ofText hChanged),
    result_evaluate (Condition.wellScoped_of_ofText hAssigned),
    show old = _ from seen_pushExpression _ _ objects, show change = _ from seen_pushExpression _ _ objects]
  exact update_eq_assign_iff Naming.renaming hOp commit _ target amount observed.state

end Reading

/-- Scaling a function of a variable of the scope down by another function. -/
theorem evaluate_update_eq_assign_iff_scaled :
    let scope := Scope.empty.extend [⟨"?x", "object"⟩]
    let target : Atom := ⟨"f", [.slot 0]⟩
    let amount := Expression.function ⟨"g", []⟩
    let changed := Condition.update .scaleDown target amount
    let assigned := Condition.update .assign target (.arithmetic .divide (.function target) amount)
    let state : Snapshot := ⟨[], [⟨⟨"f", ["a"]⟩, 6⟩, ⟨⟨"g", []⟩, 2⟩]⟩
    Condition.ofText "(scale-down (f ?x) (g))" scope = .ok (some changed) ∧
      Condition.ofText "(assign (f ?x) (/ (f ?x) (g)))" scope = .ok (some assigned) ∧
      Snapshot.Run.result (evaluate true (Tree.ofCondition (some changed) ["a"]) 0 false) (.start state) =
        Snapshot.Run.result (evaluate true (Tree.ofCondition (some assigned) ["a"]) 0 false) (.start state) ∧
      Snapshot.Run.result (evaluate true (Tree.ofCondition (some changed) ["a"]) 0 false) (.start state) =
        (⟨true, false, 3⟩, ⟨[], [⟨⟨"f", ["a"]⟩, 3⟩, ⟨⟨"g", []⟩, 2⟩]⟩) := by
  intro scope target amount changed assigned state
  have hTarget : Condition.readExpression scope (Token.ofText "(f ?x)") = .ok (.function target) [] := rfl
  have hAmount : Condition.readExpression scope (Token.ofText "(g)") = .ok amount [] := rfl
  have hOp : Update.scaleDown.arithmetic? = some .divide := rfl
  have hText : (Token.ofText "(scale-down (f ?x) (g))").map Token.text =
      operationWords Update.scaleDown.symbol ((Token.ofText "(f ?x)").map Token.text)
        ((Token.ofText "(g)").map Token.text) := by
    decide +kernel
  have hAssignment : (Token.ofText "(assign (f ?x) (/ (f ?x) (g)))").map Token.text =
      operationWords "assign" ((Token.ofText "(f ?x)").map Token.text)
        (operationWords Arithmetic.divide.symbol ((Token.ofText "(f ?x)").map Token.text)
          ((Token.ofText "(g)").map Token.text)) := by
    decide +kernel
  obtain ⟨hChanged, hAssigned, hSame⟩ :=
    evaluate_update_eq_assign_iff hTarget hAmount hOp hText hAssignment ["a"] true (.start state)
  exact ⟨hChanged, hAssigned, hSame.mpr (by decide +kernel), by decide +kernel⟩

/-- The two differ where the amount is not a number: the update writes, the assignment fails. -/
theorem evaluate_scaleDown_notANumber :
    let target : Atom := ⟨"f", []⟩
    let amount := Expression.function ⟨"g", []⟩
    let changed := Condition.update .scaleDown target amount
    let assigned := Condition.update .assign target (.arithmetic .divide (.function target) amount)
    let notANumber : Float := 0 / 0
    let state : Snapshot := ⟨[], [⟨⟨"f", []⟩, 1⟩, ⟨⟨"g", []⟩, notANumber⟩]⟩
    Condition.ofText "(scale-down (f) (g))" Scope.empty = .ok (some changed) ∧
      Condition.ofText "(assign (f) (/ (f) (g)))" Scope.empty = .ok (some assigned) ∧
      Snapshot.ofText "(= (f) 1)\n(= (g) nan)" = .ok state ∧
      Snapshot.Run.result (evaluate true (Tree.ofCondition (some changed) []) 0 false) (.start state) =
        (⟨true, false, notANumber⟩, ⟨[], [⟨⟨"f", []⟩, notANumber⟩, ⟨⟨"g", []⟩, notANumber⟩]⟩) ∧
      Snapshot.Run.result (evaluate true (Tree.ofCondition (some assigned) []) 0 false) (.start state) =
        (.failed, state) := by
  intro target amount changed assigned notANumber state
  have hTarget : Condition.readExpression Scope.empty (Token.ofText "(f)") = .ok (.function target) [] := rfl
  have hAmount : Condition.readExpression Scope.empty (Token.ofText "(g)") = .ok amount [] := rfl
  have hChanged : Condition.ofText "(scale-down (f) (g))" Scope.empty = .ok (some changed) :=
    ofText_update hTarget hAmount (by decide +kernel)
  have hAssigned : Condition.ofText "(assign (f) (/ (f) (g)))" Scope.empty = .ok (some assigned) :=
    ofText_assign hTarget hAmount (by decide +kernel)
  exact ⟨hChanged, hAssigned, by decide +kernel, by decide +kernel, by decide +kernel⟩

end PlanLogic
