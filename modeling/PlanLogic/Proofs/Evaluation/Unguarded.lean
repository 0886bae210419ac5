import PlanLogic.Evaluation.OnSnapshot
import PlanLogic.Proofs.Evaluation.Locality
import PlanLogic.Proofs.Trees.Heights

/-!
# Evaluation with faults

Trees answer every question: a reference out of range has no node, and a node without parameters has the first
parameter of no name.  Here evaluation is spelled out with operations that do not.  They look up nodes, children and
parameters without asking whether there are any, divide without asking by what, and go down to any depth, and they
fault where that is not defined.  The only guards are those of evaluation itself.
-/

namespace PlanLogic

/-- An operation that is not defined where it is carried out. -/
inductive Fault where
  /-- There is no node at a reference. -/
  | node (reference : Int)
  /-- A node has no child at a position. -/
  | child (position : Nat)
  /-- A node has no parameter at a position. -/
  | parameter (position : Nat)
  /-- A number is divided by zero. -/
  | divisor
  /-- A recursion does not end within the depth that is given to it. -/
  | depth
deriving Repr, DecidableEq

/-- Runs that may fault. -/
abbrev Faulting (m : Type → Type) := ExceptT Fault m

instance [Monad m] [FactBase m] : FactBase (Faulting m) where
  holds fact := ExceptT.lift (FactBase.holds fact)
  add fact := ExceptT.lift (FactBase.add fact)
  remove fact := ExceptT.lift (FactBase.remove fact)
  value? key := ExceptT.lift (FactBase.value? key)
  write assignment := ExceptT.lift (FactBase.write assignment)
  objects := ExceptT.lift FactBase.objects
  report diagnostic := ExceptT.lift (FactBase.report diagnostic)

namespace Unguarded

/-! ## Nodes and their parts -/

/-- The node at a reference. -/
def nodeAt (tree : Tree) (reference : Int) : Except Fault Node :=
  match tree.node? reference with
  | some node => .ok node
  | none => .error (.node reference)

/-- The child of a node at a position. -/
def childAt (node : Node) (position : Nat) : Except Fault Int :=
  match node.children[position]? with
  | some child => .ok child
  | none => .error (.child position)

/-- The parameter of a node at a position. -/
def parameterAt (node : Node) (position : Nat) : Except Fault Parameter :=
  match node.parameters[position]? with
  | some parameter => .ok parameter
  | none => .error (.parameter position)

/-- The name of the first parameter of a node that has one. -/
def firstParameter (node : Node) : Except Fault String :=
  if node.parameters.isEmpty then return "" else return (← parameterAt node 0).name

/-! ## Texts -/

/-- The text below a reference. -/
def textWithin (tree : Tree) : Nat → Int → Except Fault String
  | 0, _ => .error .depth
  | depth + 1, reference =>
    if 0 ≤ reference ∧ reference < tree.size then do
      let node ← nodeAt tree reference
      if node.kind = .parameter then
        firstParameter node
      else if Tree.showsChildren node.kind then
        return Tree.nodeText node (← node.children.mapM (textWithin tree depth))
      else
        return Tree.nodeText node []
    else
      return "<missing " ++ toString reference ++ ">"

/-- The text below a reference, where recursions may go down to a given depth; an empty tree has an empty text. -/
def text (limit : Nat) (tree : Tree) (reference : Int) : Except Fault String :=
  if tree.isEmpty then return "" else textWithin tree limit reference

/-! ## Renaming -/

/-- Renames the parameter of a node at a position. -/
def renameParameter (names : Renaming) (node : Node) (position : Nat) : Except Fault Node := do
  let parameter ← parameterAt node position
  return { node with parameters := node.parameters.set position (parameter.rename names) }

/-- Renames the parameters of a node, one after the other. -/
def renameParameters (names : Renaming) (node : Node) : Except Fault Node :=
  (List.range node.parameters.length).foldlM (renameParameter names) node

/-- Renames the parameters below a reference. -/
def renameWithin (names : Renaming) : Nat → Int → Tree → Except Fault Tree
  | 0, _, _ => .error .depth
  | depth + 1, reference, tree => do
    let node ← nodeAt tree reference
    let current ← node.children.foldlM
      (fun current child =>
        -- Only children are tried; the node that renaming starts from is taken for granted.
        if 0 ≤ child ∧ child < current.size then renameWithin names depth child current else return current)
      tree
    let renamed ← renameParameters names (← nodeAt current reference)
    return current.modify reference.toNat fun _ => renamed

/-! ## Arithmetic -/

/-- A quotient. -/
def quotient (dividend divisor : Float) : Except Fault Float :=
  if divisor == 0 then .error .divisor else .ok (dividend / divisor)

/-- The result of an arithmetic operation, if it has one. -/
def compute? : Arithmetic → Float → Float → Except Fault (Option Float)
  | .divide, left, right => do
    if right.abs > smallestDivisor then return some (← quotient left right) else return none
  | op, left, right => return op.compute? left right

/-- The new value of a function that is updated by an amount, if it has one. -/
def newValue? : Update → Float → Float → Except Fault (Option Float)
  | .scaleDown, old, amount => do
    if amount.abs ≤ smallestDivisor then return none else return some (← quotient old amount)
  | op, old, amount => return op.compute? old amount

/-! ## Evaluation -/

/-- The name that a node of a symbolic kind stands for. -/
def symbol? (node : Node) : Except Fault (Option String) :=
  match node.kind with
  | .constant => return some node.name
  | .parameter => return some (← firstParameter node)
  | _ => return none

/-- Whether two operands are equal, if they can be compared for equality. -/
def operandsEqual? (tree : Tree) (left right : Int) (leftValue rightValue : Float) :
    Except Fault (Option Bool) := do
  let leftName? ← symbol? (← nodeAt tree left)
  let rightName? ← symbol? (← nodeAt tree right)
  match leftName?, rightName? with
  | some leftName, some rightName => return some (leftName == rightName)
  | _, _ =>
    let leftNode ← nodeAt tree left
    let rightNode ← nodeAt tree right
    return if leftNode.kind = .number ∧ rightNode.kind = .number then some (leftValue == rightValue) else none

variable {m : Type → Type} [Monad m] [FactBase m] (limit : Nat)

/-- Reports the part of a tree at a reference and fails.  Its text is put together to be reported. -/
def malformed (tree : Tree) (reference : Int) : Faulting m Outcome := do
  let _ ← (text limit tree reference : Except Fault String)
  Evaluation.malformed tree reference

/-- The outcome of an operator on two operands whose values are known. -/
def operation (tree : Tree) (reference : Int) (negated : Bool) (symbol : String) (left right : Int)
    (leftValue rightValue : Float) : Faulting m Outcome :=
  match Comparison.ofSymbol? symbol with
  | some .equal => do
    match ← (operandsEqual? tree left right leftValue rightValue : Except Fault (Option Bool)) with
    | some equal => return .judged (negated != equal)
    | none => malformed limit tree reference
  | some op => return .judged (negated != op.orders leftValue rightValue)
  | none =>
    match Arithmetic.ofSymbol? symbol with
    | some op => do
      let result? ← (compute? op leftValue rightValue : Except Fault (Option Float))
      return (result?.map Outcome.computed).getD .failed
    | none => malformed limit tree reference

/-- Writes the new value of the function that an update changes. -/
def commitUpdate (tree : Tree) (reference : Int) (target : Int) (value : Float) : Faulting m Outcome := do
  let node ← (nodeAt tree target : Except Fault Node)
  if node.kind = .function then
    return ⟨← FactBase.write ⟨node.fact, value⟩, false, value⟩
  else
    malformed limit tree reference

/-- The outcome of an update with a known old value and amount. -/
def update (commit : Bool) (tree : Tree) (reference : Int) (symbol : String) (target : Int)
    (old amount : Float) : Faulting m Outcome :=
  match Update.ofSymbol? symbol with
  | none => malformed limit tree reference
  | some op => do
    match ← (newValue? op old amount : Except Fault (Option Float)) with
    | none => return .failed
    | some value =>
      if commit then commitUpdate limit tree reference target value else return .computed value

/-- Tries every choice of objects for the parameters of a quantifier on its first child. -/
def quantified (evaluate : Tree → Int → Faulting m Outcome) (tree : Tree) (reference : Int) (node : Node) :
    Faulting m Outcome := do
  let objects ← FactBase.objects
  Evaluation.firstTrue
    (fun chosen => do
      let grounded ← (renameWithin (node.parameterNames.zip chosen) limit reference tree : Except Fault Tree)
      let own ← (nodeAt grounded reference : Except Fault Node)
      let body ← (childAt own 0 : Except Fault Int)
      evaluate grounded body)
    (choices (node.parameters.map fun _ => objects))

/-- Evaluates the part of a tree at a reference, to a given depth. -/
def within (commit : Bool) : Nat → Tree → Int → Bool → Faulting m Outcome
  | 0, _, _, _ => throw .depth
  | depth + 1, tree, reference, negated =>
    if 0 ≤ reference ∧ reference < tree.size then do
      let node ← (nodeAt tree reference : Except Fault Node)
      match node.kind with
      | .conjunction => Evaluation.all (fun child => within commit depth tree child negated) node.children
      | .disjunction => Evaluation.any (fun child => within commit depth tree child negated) node.children
      | .negation =>
        if node.children.isEmpty then
          malformed limit tree reference
        else do
          let child ← (childAt node 0 : Except Fault Int)
          within commit depth tree child (!negated)
      | .predicate => Evaluation.predicate commit negated node.fact
      | .function => do
        let key ← (text limit tree reference : Except Fault String)
        Evaluation.function key
      | .expression =>
        if node.children.length = 2 then do
          let left ← (childAt node 0 : Except Fault Int)
          let right ← (childAt node 1 : Except Fault Int)
          Evaluation.operands (fun child => within commit depth tree child negated) left right
            (operation limit tree reference negated node.operator left right)
        else
          malformed limit tree reference
      | .update =>
        if node.children.length = 2 then do
          let target ← (childAt node 0 : Except Fault Int)
          let amount ← (childAt node 1 : Except Fault Int)
          Evaluation.operands (fun child => within commit depth tree child negated) target amount
            (update limit commit tree reference node.change target)
        else
          malformed limit tree reference
      | .number => return ⟨true, true, node.value⟩
      | .constant => return .judged (!node.name.isEmpty)
      | .parameter => do
        let name ← (firstParameter node : Except Fault String)
        return .judged (isGround name)
      | .quantifier =>
        if node.children.isEmpty then
          return .judged true
        else
          quantified limit (fun grounded child => within commit depth grounded child negated) tree reference node
      | .other _ => malformed limit tree reference
    else
      malformed limit tree reference

/-- Evaluates the part of a tree at a reference, where recursions may go down to a given depth; an empty tree is
true. -/
def evaluate (commit : Bool) (tree : Tree) (reference : Int) (negated : Bool) : Faulting m Outcome :=
  if tree.isEmpty then return .judged true else within limit commit limit tree reference negated

end Unguarded
end PlanLogic
