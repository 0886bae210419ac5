import PlanLogic.Condition.Basic
import PlanLogic.Placeholder
import PlanLogic.Tree.Basic

/-!
# Conditions as trees

A condition becomes a block of nodes in preorder: a node comes before the blocks of its children, which follow
each other in order.  Lowering with a list of objects replaces the slots below its length; any other slot
becomes its placeholder.
-/

namespace PlanLogic

/-- The name that a slot gets. -/
def slotName (objects : List String) (slot : Nat) : String :=
  objects[slot]?.getD (placeholder slot)

namespace Term

/-- The name that an argument gets. -/
def lowered (objects : List String) : Term → String
  | .slot index => slotName objects index
  | .object word => word

end Term

/-- The parameters that the arguments of an atom become. -/
def Atom.parameters (objects : List String) (atom : Atom) : List Parameter :=
  atom.args.map fun arg => ⟨arg.lowered objects, ""⟩

namespace Expression

/-- The block of an expression whose first node has position `start`. -/
def nodes (objects : List String) (start : Nat) : Expression → List Node
  | .number value => [{ kind := .number, value := value }]
  | .variable slot => [{ kind := .parameter, parameters := [⟨slotName objects slot, ""⟩] }]
  | .constant name => [{ kind := .constant, name := name }]
  | .function head =>
    [{ kind := .function, name := head.name, parameters := head.parameters objects }]
  | .arithmetic op left right =>
    let leftBlock := left.nodes objects (start + 1)
    let rightStart := start + 1 + leftBlock.length
    { kind := .expression, operator := op.symbol, children := [(start : Int) + 1, rightStart] } ::
      (leftBlock ++ right.nodes objects rightStart)

end Expression

namespace Condition

/-- The parameters of a quantifier: each slot with the type of its variable. -/
def quantifierParameters (objects : List String) (bindings : List Binding) (slots : List Nat) :
    List Parameter :=
  (slots.zip bindings).map fun pair => ⟨slotName objects pair.1, pair.2.type⟩

mutual

/-- The block of a condition whose first node has position `start`. -/
def nodes (objects : List String) (start : Nat) : Condition → List Node
  | .conjunction parts =>
    let blocks := partNodes objects (start + 1) parts
    { kind := .conjunction, children := blocks.1 } :: blocks.2
  | .disjunction parts =>
    let blocks := partNodes objects (start + 1) parts
    { kind := .disjunction, children := blocks.1 } :: blocks.2
  | .negation part =>
    { kind := .negation, children := [(start : Int) + 1] } :: nodes objects (start + 1) part
  | .atom head => [{ kind := .predicate, name := head.name, parameters := head.parameters objects }]
  | .comparison op left right =>
    let leftBlock := left.nodes objects (start + 1)
    let rightStart := start + 1 + leftBlock.length
    { kind := .expression, operator := op.symbol, children := [(start : Int) + 1, rightStart] } ::
      (leftBlock ++ right.nodes objects rightStart)
  | .update op target amount =>
    let targetBlock := (Expression.function target).nodes objects (start + 1)
    let amountStart := start + 1 + targetBlock.length
    { kind := .update, change := op.symbol, children := [(start : Int) + 1, amountStart] } ::
      (targetBlock ++ amount.nodes objects amountStart)
  | .quantified bindings slots body =>
    let block := bodyNodes objects (start + 1) body
    { kind := .quantifier, parameters := quantifierParameters objects bindings slots,
      children := block.1 } :: block.2

/-- The positions of the first nodes of consecutive blocks, and the blocks. -/
def partNodes (objects : List String) (start : Nat) : List Condition → List Int × List Node
  | [] => ([], [])
  | part :: parts =>
    let block := nodes objects start part
    let rest := partNodes objects (start + block.length) parts
    ((start : Int) :: rest.1, block ++ rest.2)

/-- The position of the first node of a block that may be empty, and the block. -/
def bodyNodes (objects : List String) (start : Nat) : Option Condition → List Int × List Node
  | none => ([], [])
  | some condition => ([(start : Int)], nodes objects start condition)

end

end Condition

namespace Tree

/-- The tree with the block of an expression appended. -/
def pushExpression (tree : Tree) (expression : Expression) (objects : List String) : Tree :=
  ⟨tree.nodes ++ expression.nodes objects tree.size⟩

/-- The tree with the block of a condition appended. -/
def pushCondition (tree : Tree) (condition : Condition) (objects : List String) : Tree :=
  ⟨tree.nodes ++ condition.nodes objects tree.size⟩

/-- The tree of a condition alone; the empty condition gives the empty tree. -/
def ofCondition (condition : Option Condition) (objects : List String) : Tree :=
  match condition with
  | none => empty
  | some condition => empty.pushCondition condition objects

end Tree
end PlanLogic
