import PlanLogic.SignedIndex

/-!
# Trees

A tree is a list of nodes.  A node refers to another by its position in the list, so several roots may share
one tree and one node may have several parents.  Nothing here requires the references to be sound: positions
out of range, wrong numbers of children and unknown kinds are all representable, and every operation on trees
says what it does with them.
-/

namespace PlanLogic

/-- A parameter of a node; the type is empty unless the node is a quantifier. -/
structure Parameter where
  name : String
  type : String
deriving Repr, DecidableEq

/-- The kind of a node; a name that is no kind of this library is kept. -/
inductive NodeKind where
  | conjunction
  | disjunction
  | negation
  | predicate
  | function
  | expression
  | update
  | number
  | constant
  | parameter
  | quantifier
  | other (name : String)
deriving Repr, DecidableEq

namespace NodeKind

/-- The kinds of this library. -/
def known : List NodeKind :=
  [conjunction, disjunction, negation, predicate, function, expression, update, number, constant,
   parameter, quantifier]

/-- The name of a kind. -/
def name : NodeKind → String
  | .conjunction => "and"
  | .disjunction => "or"
  | .negation => "not"
  | .predicate => "predicate"
  | .function => "function"
  | .expression => "expression"
  | .update => "function_modifier"
  | .number => "number"
  | .constant => "constant"
  | .parameter => "parameter"
  | .quantifier => "exists"
  | .other name => name

/-- The kind with a given name. -/
def ofName (name : String) : NodeKind :=
  (known.find? fun kind => kind.name == name).getD (.other name)

end NodeKind

/-- A node.  The operator is that of an expression, the change that of an update. -/
structure Node where
  kind : NodeKind
  children : List Int := []
  operator : String := ""
  change : String := ""
  name : String := ""
  parameters : List Parameter := []
  value : Float := 0
deriving Repr

/-- A list of nodes that refer to each other by position. -/
structure Tree where
  nodes : List Node
deriving Repr

namespace Tree

/-- The tree without nodes. -/
def empty : Tree := ⟨[]⟩

/-- The number of nodes, which is the position that the next node gets. -/
def size (tree : Tree) : Nat :=
  tree.nodes.length

/-- Whether the tree has no nodes. -/
def isEmpty (tree : Tree) : Bool :=
  tree.nodes.isEmpty

/-- The tree with one more node. -/
def push (tree : Tree) (node : Node) : Tree :=
  ⟨tree.nodes ++ [node]⟩

/-- The node that a reference points to, if it is in range; a reference never counts from the end. -/
def node? (tree : Tree) (reference : Int) : Option Node :=
  if 0 ≤ reference then tree.nodes[reference.toNat]? else none

/-- The tree with one node changed. -/
def modify (tree : Tree) (position : Nat) (change : Node → Node) : Tree :=
  ⟨tree.nodes.modify position change⟩

/-- The references that occur as a child. -/
def references (tree : Tree) : List Int :=
  tree.nodes.flatMap Node.children

/-- The positions of the nodes that are nobody's child, in order. -/
def roots (tree : Tree) : List Nat :=
  (List.range tree.size).filter fun (position : Nat) => !tree.references.contains (position : Int)

theorem node?_lt {tree : Tree} {reference : Int} {node : Node}
    (hNode : tree.node? reference = some node) : 0 ≤ reference ∧ reference < tree.size := by
  unfold node? at hNode
  split at hNode
  · next hSign =>
      obtain ⟨hRange, -⟩ := List.getElem?_eq_some_iff.mp hNode
      simp only [size]
      omega
  · simp at hNode

end Tree
end PlanLogic
