import PlanLogic.Condition.Basic
import PlanLogic.Evaluation.OnSnapshot

/-!
# A direct interpreter of conditions

The interpreter walks the syntax of a condition against a snapshot.  It numbers no nodes, lays out no tree
and reports nothing.  What a term is called comes from an environment, and a negation is a flag that is handed
on to all parts.

A `Naming` fixes what an environment is.  Two are used: an `Environment` holds an object for each slot, and
the names in a renamed tree are an environment as well, in which a quantifier renames what is there already.
-/

namespace PlanLogic

/-- What the terms are called in an environment, and the environment in which a quantifier has chosen objects
for its slots. -/
structure Naming (ε : Type) where
  name : ε → Term → String
  bind : ε → List Nat → List String → ε

/-- The fact that an atom stands for. -/
def Naming.fact (naming : Naming ε) (env : ε) (head : Atom) : Fact :=
  ⟨head.name, head.args.map (naming.name env)⟩

/-- An object for each slot. -/
abbrev Environment := Nat → String

namespace Environment

/-- The object that a term stands for. -/
def name (env : Environment) : Term → String
  | .slot slot => env slot
  | .object word => word

/-- The environment with objects for some slots. -/
def bind (env : Environment) (slots : List Nat) (chosen : List String) : Environment := fun slot =>
  ((slots.zip chosen).lookup slot).getD (env slot)

/-- Terms are called by the objects that they stand for. -/
def naming : Naming Environment := ⟨name, bind⟩

end Environment

namespace Interpreter

/-- Steps that read and change a snapshot. -/
abbrev Step := StateM Snapshot

variable (naming : Naming ε)

/-! ## Expressions -/

/-- The outcome of an expression; its truth value plays no part. -/
def value (env : ε) (state : Snapshot) : Expression → Outcome
  | .number number => ⟨true, true, number⟩
  | .variable slot => .judged (isGround (naming.name env (.slot slot)))
  | .constant word => .judged (!word.isEmpty)
  | .function head => ((state.value? (naming.fact env head).key).map Outcome.computed).getD .failed
  | .arithmetic op left right =>
    let leftOutcome := value env state left
    let rightOutcome := value env state right
    if leftOutcome.success && rightOutcome.success then
      ((op.compute? leftOutcome.value rightOutcome.value).map Outcome.computed).getD .failed
    else
      .failed

/-- The name that an expression stands for, if it is a symbol. -/
def symbol? (env : ε) : Expression → Option String
  | .variable slot => some (naming.name env (.slot slot))
  | .constant word => some word
  | _ => none

/-- Whether an expression is a number literal. -/
def isNumber : Expression → Bool
  | .number _ => true
  | _ => false

/-- Whether two expressions are equal: two symbols by name, two number literals by value.  Any other pair
cannot be compared for equality. -/
def equal? (env : ε) (left right : Expression) (leftValue rightValue : Float) : Option Bool :=
  match symbol? naming env left, symbol? naming env right with
  | some leftName, some rightName => some (leftName == rightName)
  | _, _ => if isNumber left ∧ isNumber right then some (leftValue == rightValue) else none

/-- The truth of a comparison whose operands have values, if there is one. -/
def compare? (env : ε) (op : Comparison) (left right : Expression) (leftValue rightValue : Float) :
    Option Bool :=
  if op = .equal then
    equal? naming env left right leftValue rightValue
  else
    some (op.orders leftValue rightValue)

/-- The outcome of a comparison. -/
def compare (env : ε) (negated : Bool) (op : Comparison) (left right : Expression) (state : Snapshot) :
    Outcome :=
  let leftOutcome := value naming env state left
  let rightOutcome := value naming env state right
  if leftOutcome.success && rightOutcome.success then
    match compare? naming env op left right leftOutcome.value rightOutcome.value with
    | some truth => .judged (negated != truth)
    | none => .failed
  else
    .failed

/-! ## Conditions -/

/-- Asks for a fact, or adds or removes it. -/
def atom (commit negated : Bool) (fact : Fact) : Step Outcome := fun state =>
  if commit then
    if negated then (⟨true, false, 0⟩, state.remove fact) else (⟨true, true, 0⟩, state.add fact)
  else
    (.judged (negated != state.holds fact), state)

/-- Computes the new value of a function and, if it is to be changed, writes it. -/
def update (commit : Bool) (env : ε) (op : Update) (target : Atom) (amount : Expression) :
    Step Outcome := fun state =>
  let fact := naming.fact env target
  let old := value naming env state (.function target)
  let change := value naming env state amount
  if old.success && change.success then
    match op.compute? old.value change.value with
    | none => (.failed, state)
    | some new =>
      if commit then (⟨state.assigns fact, false, new⟩, state.write ⟨fact, new⟩) else (.computed new, state)
  else
    (.failed, state)

/-- Tries alternatives in order and stops at the first that comes out true. -/
def firstTrue (attempt : α → Step Outcome) : List α → Step Outcome
  | [] => return .judged false
  | alternative :: rest => do
    let outcome ← attempt alternative
    if outcome.truth then return outcome else firstTrue attempt rest

mutual

/-- Interprets a condition. -/
def walk (commit : Bool) (env : ε) (negated : Bool) : Condition → Step Outcome
  | .conjunction parts => do
    let outcomes ← walkParts commit env negated parts
    return ⟨outcomes.all Outcome.success, outcomes.all Outcome.truth, 0⟩
  | .disjunction parts => do
    let outcomes ← walkParts commit env negated parts
    return ⟨outcomes.all Outcome.success, outcomes.any Outcome.truth, 0⟩
  | .negation part => walk commit env (!negated) part
  | .atom head => atom commit negated (naming.fact env head)
  | .comparison op left right => fun state => (compare naming env negated op left right state, state)
  | .update op target amount => update naming commit env op target amount
  | .quantified _ slots body => walkBody commit env negated slots body

/-- Interprets conditions in order. -/
def walkParts (commit : Bool) (env : ε) (negated : Bool) : List Condition → Step (List Outcome)
  | [] => return []
  | part :: parts => do
    let outcome ← walk commit env negated part
    let outcomes ← walkParts commit env negated parts
    return outcome :: outcomes

/-- Interprets the body of a quantifier with every choice of objects for its slots until it comes out true.
An empty body is true, whatever the flag. -/
def walkBody (commit : Bool) (env : ε) (negated : Bool) (slots : List Nat) : Option Condition → Step Outcome
  | none => return .judged true
  | some body => do
    -- The objects are those before the first choice, also when the body changes the snapshot.
    let objects := (← get).objects
    firstTrue (fun chosen => walk commit (naming.bind env slots chosen) negated body)
      (choices (slots.map fun _ => objects))

end

/-- Interprets a condition that may be empty; the empty one is true. -/
def interpret (commit : Bool) (env : ε) : Option Condition → Step Outcome
  | none => return .judged true
  | some condition => walk naming commit env false condition

end Interpreter
end PlanLogic
