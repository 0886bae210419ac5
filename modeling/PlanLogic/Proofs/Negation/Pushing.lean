import PlanLogic.Proofs.Compilation.Simulation

/-!
# Negation is pushed to the leaves

A negation is handed down as a flag, through conjunctions, disjunctions and quantifiers alike, and counts
where a fact or a comparison is reached.  So evaluating a condition is evaluating the condition in which
every negation has been moved to the atoms and comparisons below it, two negations cancel, and no connective
is exchanged for its dual.
-/

namespace PlanLogic
namespace Condition

/-- A condition without parts, under a negation if there is one. -/
def literal (negated : Bool) (condition : Condition) : Condition :=
  if negated then .negation condition else condition

mutual

/-- The condition with its negations, and one around it if `negated` says so, moved to the atoms and
comparisons. An update ignores negations, and so does a quantifier without a body. -/
def pushed (negated : Bool) : Condition → Condition
  | .conjunction parts => .conjunction (partsPushed negated parts)
  | .disjunction parts => .disjunction (partsPushed negated parts)
  | .negation part => pushed (!negated) part
  | .atom head => literal negated (.atom head)
  | .comparison op left right => literal negated (.comparison op left right)
  | .update op target amount => .update op target amount
  | .quantified bindings slots body => .quantified bindings slots (bodyPushed negated body)

/-- The conditions with their negations moved. -/
def partsPushed (negated : Bool) : List Condition → List Condition
  | [] => []
  | part :: parts => pushed negated part :: partsPushed negated parts

/-- The body of a quantifier with its negations moved. -/
def bodyPushed (negated : Bool) : Option Condition → Option Condition
  | none => none
  | some body => some (pushed negated body)

end

theorem wellScoped_literal {size : Nat} {condition : Condition} (hScoped : condition.WellScoped size)
    (negated : Bool) : (literal negated condition).WellScoped size := by
  cases negated with
  | false => exact hScoped
  | true => exact hScoped

mutual

theorem wellScoped_pushed : ∀ (condition : Condition) (size : Nat) (negated : Bool),
    condition.WellScoped size → (condition.pushed negated).WellScoped size
  | .conjunction parts, size, negated, hScoped => partsWellScoped_pushed parts size negated hScoped
  | .disjunction parts, size, negated, hScoped => partsWellScoped_pushed parts size negated hScoped
  | .negation part, size, negated, hScoped => wellScoped_pushed part size (!negated) hScoped
  | .atom _, _, negated, hScoped => wellScoped_literal hScoped negated
  | .comparison _ _ _, _, negated, hScoped => wellScoped_literal hScoped negated
  | .update _ _ _, _, _, hScoped => hScoped
  | .quantified _ _ none, _, _, hScoped => hScoped
  | .quantified bindings _ (some body), size, negated, hScoped =>
    ⟨hScoped.1, wellScoped_pushed body (size + bindings.length) negated hScoped.2⟩

theorem partsWellScoped_pushed : ∀ (parts : List Condition) (size : Nat) (negated : Bool),
    PartsWellScoped size parts → PartsWellScoped size (partsPushed negated parts)
  | [], _, _, _ => trivial
  | part :: parts, size, negated, hScoped =>
    ⟨wellScoped_pushed part size negated hScoped.1, partsWellScoped_pushed parts size negated hScoped.2⟩

end

end Condition

namespace Interpreter

open Condition

variable (naming : Naming ε) (commit : Bool)

theorem walk_literal (env : ε) (negated : Bool) (condition : Condition) :
    walk naming commit env false (literal negated condition) = walk naming commit env negated condition := by
  cases negated with
  | false => rfl
  | true => rfl

mutual

/-- The flag of the interpreter can be pushed into the condition. -/
theorem walk_pushed : ∀ (condition : Condition) (env : ε) (negated : Bool),
    walk naming commit env false (condition.pushed negated) = walk naming commit env negated condition
  | .conjunction parts, env, negated => by
      rw [pushed, walk, walk, walkParts_pushed parts env negated]
  | .disjunction parts, env, negated => by
      rw [pushed, walk, walk, walkParts_pushed parts env negated]
  | .negation part, env, negated => by
      rw [pushed, walk, walk_pushed part env (!negated)]
  | .atom head, env, negated => walk_literal naming commit env negated (.atom head)
  | .comparison op left right, env, negated =>
    walk_literal naming commit env negated (.comparison op left right)
  | .update _ _ _, _, _ => rfl
  | .quantified _ _ none, _, _ => rfl
  | .quantified bindings slots (some body), env, negated => by
      have hBody : ∀ chosen, walk naming commit (naming.bind env slots chosen) false (body.pushed negated) =
          walk naming commit (naming.bind env slots chosen) negated body :=
        fun chosen => walk_pushed body (naming.bind env slots chosen) negated
      rw [pushed, bodyPushed, walk, walk, walkBody, walkBody]
      simp only [hBody]

theorem walkParts_pushed : ∀ (parts : List Condition) (env : ε) (negated : Bool),
    walkParts naming commit env false (partsPushed negated parts) = walkParts naming commit env negated parts
  | [], _, _ => rfl
  | part :: parts, env, negated => by
      rw [partsPushed, walkParts, walkParts, walk_pushed part env negated, walkParts_pushed parts env negated]

end

end Interpreter
end PlanLogic
