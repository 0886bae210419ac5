import PlanLogic.Operator
import PlanLogic.Scope.Basic

/-!
# Conditions

The syntax of conditions and effects.  Variables occur as slots of the enclosing scope; their names live in
the scope and return when a condition is printed.  The empty condition is no `Condition`: where it is allowed,
an `Option` says so.
-/

namespace PlanLogic

/-- An argument: the variable in a slot, or an object. -/
inductive Term where
  | slot (slot : Nat)
  | object (name : String)
deriving Repr, DecidableEq

/-- A name applied to arguments: a predicate or a function. -/
structure Atom where
  name : String
  args : List Term
deriving Repr, DecidableEq

/-- An expression with a numeric or symbolic value. -/
inductive Expression where
  | number (value : Float)
  | variable (slot : Nat)
  | constant (name : String)
  | function (head : Atom)
  | arithmetic (op : Arithmetic) (left right : Expression)
deriving Repr

/-- A condition, or the effect that makes it true. -/
inductive Condition where
  /-- All parts. -/
  | conjunction (parts : List Condition)
  /-- One of the parts. -/
  | disjunction (parts : List Condition)
  | negation (part : Condition)
  | atom (atom : Atom)
  | comparison (op : Comparison) (left right : Expression)
  | update (op : Update) (target : Atom) (amount : Expression)
  /-- The variables, the slots that they take, and the body, which may be empty. -/
  | quantified (bindings : List Binding) (slots : List Nat) (body : Option Condition)

namespace Expression

/-- Whether two expressions are equal, where numbers are compared as numbers. -/
def same : Expression → Expression → Bool
  | .number a, .number b => a == b
  | .variable a, .variable b => a == b
  | .constant a, .constant b => a == b
  | .function a, .function b => a == b
  | .arithmetic op l r, .arithmetic op' l' r' => op == op' && same l l' && same r r'
  | _, _ => false

end Expression

namespace Condition

mutual

/-- Whether two conditions are equal, where numbers are compared as numbers. -/
def same : Condition → Condition → Bool
  | .conjunction a, .conjunction b => sameParts a b
  | .disjunction a, .disjunction b => sameParts a b
  | .negation a, .negation b => same a b
  | .atom a, .atom b => a == b
  | .comparison op l r, .comparison op' l' r' => op == op' && l.same l' && r.same r'
  | .update op f e, .update op' f' e' => op == op' && f == f' && e.same e'
  | .quantified vs ss a, .quantified vs' ss' b => vs == vs' && ss == ss' && sameBody a b
  | _, _ => false

/-- Whether two lists of conditions are equal. -/
def sameParts : List Condition → List Condition → Bool
  | [], [] => true
  | a :: as, b :: bs => same a b && sameParts as bs
  | _, _ => false

/-- Whether two possibly empty conditions are equal. -/
def sameBody : Option Condition → Option Condition → Bool
  | none, none => true
  | some a, some b => same a b
  | _, _ => false

end

end Condition
end PlanLogic
