import PlanLogic.Evaluation.FactBase
import PlanLogic.Operator
import PlanLogic.Placeholder
import PlanLogic.Tree.Grounding

/-!
# Evaluation

Evaluation walks a tree against a fact base.  Checking asks whether a condition holds; applying makes an
effect true.  Negation is passed down to the leaves: under an odd number of negations a fact is asked for, or
removed, instead of the other way round.  A quantifier tries every choice of objects for its variables, the
last variable varying fastest, and stops at the first choice that comes out true.

The walk is bounded by a depth of one more than the number of nodes, which no path without cycles exceeds.
-/

namespace PlanLogic

/-- What evaluation says about a part of a tree: whether it could be computed, whether it is true, and its
number. -/
structure Outcome where
  success : Bool
  truth : Bool
  value : Float
deriving Repr

namespace Outcome

/-- The part could not be computed. -/
def failed : Outcome := ⟨false, false, 0⟩

/-- A truth value. -/
def judged (truth : Bool) : Outcome := ⟨true, truth, 0⟩

/-- A number. -/
def computed (value : Float) : Outcome := ⟨true, false, value⟩

end Outcome

/-- The largest size of a divisor that counts as zero. -/
def smallestDivisor : Float := 1e-5

/-- The result of an arithmetic operation; dividing by almost zero has none. -/
def Arithmetic.compute? : Arithmetic → Float → Float → Option Float
  | .add, left, right => some (left + right)
  | .subtract, left, right => some (left - right)
  | .multiply, left, right => some (left * right)
  | .divide, left, right => if right.abs > smallestDivisor then some (left / right) else none

/-- The new value of a function that is updated by an amount; scaling down by almost zero has none. -/
def Update.compute? : Update → Float → Float → Option Float
  | .assign, _, amount => some amount
  | .increase, old, amount => some (old + amount)
  | .decrease, old, amount => some (old - amount)
  | .scaleUp, old, amount => some (old * amount)
  | .scaleDown, old, amount => if amount.abs ≤ smallestDivisor then none else some (old / amount)

/-- The name that a node of a symbolic kind stands for. -/
def Node.symbol? (node : Node) : Option String :=
  match node.kind with
  | .constant => some node.name
  | .parameter => some node.firstParameter
  | _ => none

/-- Whether two operands are equal: two symbols by name, two number literals by value.  Any other pair
cannot be compared for equality. -/
def operandsEqual? (left right : Node) (leftValue rightValue : Float) : Option Bool :=
  match left.symbol?, right.symbol? with
  | some leftName, some rightName => some (leftName == rightName)
  | _, _ =>
    if left.kind = .number ∧ right.kind = .number then some (leftValue == rightValue) else none

/-- Whether a comparison other than equality holds between two values. -/
def Comparison.orders (op : Comparison) (left right : Float) : Bool :=
  match op with
  | .atLeast => decide (left ≥ right)
  | .above => decide (left > right)
  | .atMost => decide (left ≤ right)
  | .below => decide (left < right)
  | .equal => left == right

namespace Evaluation

variable {m : Type → Type} [Monad m] [FactBase m]

/-- Reports the part of a tree at a reference and fails. -/
def malformed (tree : Tree) (reference : Int) : m Outcome := do
  FactBase.report ⟨tree, reference⟩
  return .failed

/-- Evaluates all parts in order; all of them must come out true. -/
def all (evaluate : Int → m Outcome) (children : List Int) : m Outcome :=
  children.foldlM
    (fun sofar child => do
      -- A part that is false does not keep the later ones from being evaluated.
      let part ← evaluate child
      return ⟨sofar.success && part.success, sofar.truth && part.truth, 0⟩)
    ⟨true, true, 0⟩

/-- Evaluates all parts in order; one of them must come out true. -/
def any (evaluate : Int → m Outcome) (children : List Int) : m Outcome :=
  children.foldlM
    (fun sofar child => do
      let part ← evaluate child
      return ⟨sofar.success && part.success, sofar.truth || part.truth, 0⟩)
    ⟨true, false, 0⟩

/-- Asks for a fact, or adds or removes it. -/
def predicate (commit negated : Bool) (fact : Fact) : m Outcome :=
  if commit then
    if negated then
      return ⟨← FactBase.remove fact, false, 0⟩
    else
      return ⟨← FactBase.add fact, true, 0⟩
  else
    return .judged (negated != (← FactBase.holds fact))

/-- Looks up the number of a head by its text. -/
def function (key : String) : m Outcome := do
  match ← FactBase.value? key with
  | none => return .failed
  | some value => return .computed value

/-- Evaluates two operands in order and goes on with their outcomes if both could be computed. -/
def operands (evaluate : Int → m Outcome) (left right : Int)
    (next : Float → Float → m Outcome) : m Outcome := do
  let leftOutcome ← evaluate left
  let rightOutcome ← evaluate right
  if leftOutcome.success && rightOutcome.success then
    next leftOutcome.value rightOutcome.value
  else
    return .failed

/-- The outcome of an operator on two operands whose values are known. -/
def operation (tree : Tree) (reference : Int) (negated : Bool) (symbol : String) (left right : Int)
    (leftValue rightValue : Float) : m Outcome :=
  match Comparison.ofSymbol? symbol with
  | some .equal =>
    match tree.node? left, tree.node? right with
    | some leftNode, some rightNode =>
      match operandsEqual? leftNode rightNode leftValue rightValue with
      | some equal => return .judged (negated != equal)
      | none => malformed tree reference
    | _, _ => malformed tree reference
  | some op => return .judged (negated != op.orders leftValue rightValue)
  | none =>
    match Arithmetic.ofSymbol? symbol with
    | some op => return ((op.compute? leftValue rightValue).map Outcome.computed).getD .failed
    | none => malformed tree reference

/-- Writes the new value of the function that an update changes. -/
def commitUpdate (tree : Tree) (reference : Int) (target : Int) (value : Float) : m Outcome :=
  match tree.node? target with
  | some node =>
    if node.kind = .function then
      return ⟨← FactBase.write ⟨node.fact, value⟩, false, value⟩
    else
      malformed tree reference
  | none => malformed tree reference

/-- The outcome of an update with a known old value and amount. -/
def update (commit : Bool) (tree : Tree) (reference : Int) (symbol : String) (target : Int)
    (old amount : Float) : m Outcome :=
  match Update.ofSymbol? symbol with
  | none => malformed tree reference
  | some op =>
    match op.compute? old amount with
    | none => return .failed
    | some value =>
      if commit then commitUpdate tree reference target value else return .computed value

/-- Tries alternatives in order and stops at the first that comes out true. -/
def firstTrue (attempt : α → m Outcome) : List α → m Outcome
  | [] => return .judged false
  | alternative :: rest => do
    let outcome ← attempt alternative
    if outcome.truth then return outcome else firstTrue attempt rest

/-- Tries every choice of objects for the parameters of a quantifier on its first child. -/
def quantified (evaluate : Tree → Int → m Outcome) (tree : Tree) (position : Nat) (node : Node)
    (body : Int) : m Outcome := do
  let objects ← FactBase.objects
  firstTrue (fun chosen => evaluate (tree.rename position (node.parameterNames.zip chosen)) body)
    (choices (node.parameters.map fun _ => objects))

/-- Evaluates the part of a tree at a reference, to a given depth. -/
def within (commit : Bool) : Nat → Tree → Int → Bool → m Outcome
  | 0, _, _, _ => return .failed
  | depth + 1, tree, reference, negated =>
    match tree.node? reference with
    | none => malformed tree reference
    | some node =>
      match node.kind with
      | .conjunction => all (fun child => within commit depth tree child negated) node.children
      | .disjunction => any (fun child => within commit depth tree child negated) node.children
      | .negation =>
        match node.children with
        | [] => malformed tree reference
        -- Children after the first do not count.
        | child :: _ => within commit depth tree child (!negated)
      | .predicate => predicate commit negated node.fact
      | .function => function node.fact.key
      | .expression =>
        match node.children with
        | [left, right] =>
          operands (fun child => within commit depth tree child negated) left right
            (operation tree reference negated node.operator left right)
        | _ => malformed tree reference
      | .update =>
        match node.children with
        | [target, amount] =>
          operands (fun child => within commit depth tree child negated) target amount
            (update commit tree reference node.change target)
        | _ => malformed tree reference
      -- Numbers and symbols are not facts, so a negation around them changes nothing.
      | .number => return ⟨true, true, node.value⟩
      | .constant => return .judged (!node.name.isEmpty)
      | .parameter => return .judged (isGround node.firstParameter)
      | .quantifier =>
        match node.children with
        | [] => return .judged true
        | body :: _ =>
          -- Each choice is tried on a renamed tree of the same size, so the depth still suffices.
          quantified (fun grounded child => within commit depth grounded child negated) tree
            reference.toNat node body
      | .other _ => malformed tree reference

end Evaluation

variable {m : Type → Type} [Monad m] [FactBase m]

/-- Evaluates the part of a tree at a reference; an empty tree is true. -/
def evaluate (commit : Bool) (tree : Tree) (reference : Int) (negated : Bool) : m Outcome :=
  if tree.isEmpty then
    return .judged true
  else
    Evaluation.within commit (tree.size + 1) tree reference negated

/-- Whether the part of a tree at a reference holds. -/
def check (tree : Tree) (reference : Int) : m Bool := do
  return (← evaluate false tree reference false).truth

/-- Makes the part of a tree at a reference true; the answer says whether all of it could be done. -/
def applyEffect (tree : Tree) (reference : Int) : m Bool := do
  return (← evaluate true tree reference false).success

end PlanLogic
