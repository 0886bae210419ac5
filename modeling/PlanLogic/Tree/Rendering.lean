import PlanLogic.Decimal.Layout
import PlanLogic.Fact.Basic
import PlanLogic.Tree.Basic

/-!
# The one-line text of a tree

The text of the part of a tree below a reference.  A reference out of range and an unknown kind are shown
between angle brackets.  The recursion is on a bound for the depth: without cycles a path visits each node at
most once, so one more than the number of nodes is enough.
-/

namespace PlanLogic

/-- The names of a node's parameters. -/
def Node.parameterNames (node : Node) : List String :=
  node.parameters.map Parameter.name

/-- The name of a node with the names of its parameters. -/
def Node.fact (node : Node) : Fact :=
  ⟨node.name, node.parameterNames⟩

/-- The name of a node's first parameter, or nothing at all. -/
def Node.firstParameter (node : Node) : String :=
  (node.parameterNames.head?).getD ""

/-- A quantified parameter with its type, if it has one. -/
def Parameter.declaration (parameter : Parameter) : String :=
  if parameter.type.isEmpty then parameter.name else parameter.name ++ " - " ++ parameter.type

namespace Tree

/-- The text of a node, given the texts of its children. -/
def nodeText (node : Node) (children : List String) : String :=
  let parts := String.intercalate " " children
  match node.kind with
  | .conjunction | .disjunction | .negation => "(" ++ node.kind.name ++ " " ++ parts ++ ")"
  | .predicate | .function => node.fact.key
  | .expression => "(" ++ node.operator ++ " " ++ parts ++ ")"
  | .update => "(" ++ node.change ++ " " ++ parts ++ ")"
  | .number => Decimal.plainText node.value
  | .constant => node.name
  | .parameter => node.firstParameter
  | .quantifier =>
    let declared := String.intercalate " " (node.parameters.map Parameter.declaration)
    if parts.isEmpty then
      "(exists (" ++ declared ++ "))"
    else
      "(exists (" ++ declared ++ ") " ++ parts ++ ")"
  | .other name => "<" ++ name ++ ">"

/-- Whether the text of a node of this kind shows its children. -/
def showsChildren : NodeKind → Bool
  | .conjunction | .disjunction | .negation | .expression | .update | .quantifier => true
  | _ => false

/-- The text below a reference, to a given depth. -/
def textWithin (tree : Tree) : Nat → Int → String
  | 0, _ => ""
  | depth + 1, reference =>
    match tree.node? reference with
    | none => "<missing " ++ toString reference ++ ">"
    | some node =>
      nodeText node (if showsChildren node.kind then node.children.map (textWithin tree depth) else [])

/-- The text below a reference; an empty tree has an empty text. -/
def text (tree : Tree) (reference : Int) : String :=
  if tree.isEmpty then "" else textWithin tree (tree.size + 1) reference

/-- The text below the first node. -/
def rootText (tree : Tree) : String :=
  tree.text 0

end Tree
end PlanLogic
