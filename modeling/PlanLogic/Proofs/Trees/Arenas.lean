import PlanLogic.Proofs.Compilation.Layout
import Mathlib.Data.List.Forall2

/-!
# Trees built node by node

An arena is a list of numbered nodes that grows.  A node is added before its children, without any, and gets the next
number; then its children are lowered one after the other, and the number of each is appended to the list that its
parent keeps.  Between the two the arena has grown by everything below the child.

Lowering a condition in this way numbers the nodes by their positions, and what it leaves is the tree with the block
of the condition appended.  The argument goes through outlines: a step that lowers something appends the layout of
an outline, wherever the arena ends, and steps below a common parent append the layout of the whole.
-/

namespace PlanLogic

/-- A node with the number that it was given. -/
structure Entry where
  number : Nat
  node : Node

/-- The numbered nodes so far. -/
abbrev Arena := List Entry

namespace Arena

/-- The nodes of a tree, numbered by their positions. -/
def ofTree (tree : Tree) : Arena :=
  tree.nodes.mapIdx Entry.mk

/-- Adds a node, which gets the next number. -/
def add (node : Node) : StateM Arena Nat := fun arena =>
  (arena.length, arena ++ [⟨arena.length, node⟩])

/-- Appends a number to the children of a node. -/
def link (parent child : Nat) : StateM Arena Unit := fun arena =>
  ((), arena.modify parent fun entry =>
    { entry with node := { entry.node with children := entry.node.children ++ [(child : Int)] } })

/-- Takes steps in order and links what each of them lowers. -/
def linkAll (parent : Nat) : List (StateM Arena Nat) → StateM Arena Unit
  | [] => return
  | lower :: rest => do
    link parent (← lower)
    linkAll parent rest

/-- Adds a node and then everything below it. -/
def addAbove (node : Node) (below : List (StateM Arena Nat)) : StateM Arena Nat := do
  let parent ← add node
  linkAll parent below
  return parent

/-! ## Lowering -/

/-- Lowers an expression. -/
def lowerExpression (objects : List String) : Expression → StateM Arena Nat
  | .number value => addAbove { kind := .number, value := value } []
  | .variable slot => addAbove { kind := .parameter, parameters := [⟨slotName objects slot, ""⟩] } []
  | .constant name => addAbove { kind := .constant, name := name } []
  | .function head => addAbove { kind := .function, name := head.name, parameters := head.parameters objects } []
  | .arithmetic op left right =>
    addAbove { kind := .expression, operator := op.symbol }
      [lowerExpression objects left, lowerExpression objects right]

mutual

/-- Lowers a condition. -/
def lowerCondition (objects : List String) : Condition → StateM Arena Nat
  | .conjunction parts => addAbove { kind := .conjunction } (lowerParts objects parts)
  | .disjunction parts => addAbove { kind := .disjunction } (lowerParts objects parts)
  | .negation part => addAbove { kind := .negation } [lowerCondition objects part]
  | .atom head => addAbove { kind := .predicate, name := head.name, parameters := head.parameters objects } []
  | .comparison op left right =>
    addAbove { kind := .expression, operator := op.symbol }
      [lowerExpression objects left, lowerExpression objects right]
  | .update op target amount =>
    addAbove { kind := .update, change := op.symbol }
      [lowerExpression objects (.function target), lowerExpression objects amount]
  | .quantified bindings slots body =>
    addAbove { kind := .quantifier, parameters := Condition.quantifierParameters objects bindings slots }
      (lowerBody objects body)

/-- The steps that lower conditions. -/
def lowerParts (objects : List String) : List Condition → List (StateM Arena Nat)
  | [] => []
  | part :: parts => lowerCondition objects part :: lowerParts objects parts

/-- The step that lowers a body, if there is one. -/
def lowerBody (objects : List String) : Option Condition → List (StateM Arena Nat)
  | none => []
  | some body => [lowerCondition objects body]

end

/-! ## What the steps append -/

theorem length_ofTree (tree : Tree) : (ofTree tree).length = tree.size :=
  List.length_mapIdx

theorem add_ofTree (node : Node) (tree : Tree) : add node (ofTree tree) = (tree.size, ofTree (tree.push node)) := by
  rw [add, length_ofTree, ofTree, ofTree, Tree.push, List.mapIdx_append, List.mapIdx_cons, List.mapIdx_nil,
    Nat.zero_add]
  rfl

theorem link_ofTree (parent child : Nat) (tree : Tree) :
    link parent child (ofTree tree) =
      ((), ofTree (tree.modify parent fun node => { node with children := node.children ++ [(child : Int)] })) := by
  refine congrArg (Prod.mk ()) (List.ext_getElem? fun index => ?_)
  rw [ofTree, ofTree, Tree.modify, List.getElem?_modify, List.getElem?_mapIdx, List.getElem?_mapIdx,
    List.getElem?_modify, Option.map_eq_map, Option.map_eq_map, Option.map_map, Option.map_map]
  refine congrArg (Option.map · _) (funext fun node => ?_)
  by_cases hHere : parent = index
  · simp [hHere]
  · simp [hHere]

/-- Changing the node that stands behind other ones. -/
theorem modify_between (before after : List Node) (node : Node) (change : Node → Node) :
    (Tree.mk (before ++ node :: after)).modify before.length change = ⟨before ++ change node :: after⟩ := by
  refine congrArg Tree.mk ?_
  induction before with
  | nil => rfl
  | cons first before ih => exact congrArg (List.cons first) ih

/-- A step appends the layout of an outline, wherever the arena ends, and answers the number of its first node. -/
def Appends (lower : StateM Arena Nat) (outline : Outline) : Prop :=
  ∀ tree : Tree, lower (ofTree tree) = (tree.size, ofTree ⟨tree.nodes ++ outline.layout tree.size⟩)

open Outline

/-- The steps below a node that stands somewhere in the arena append consecutive blocks at its end, and the node
keeps the positions of their first nodes. -/
theorem linkAll_ofTree {below : List (StateM Arena Nat)} {outlines : List Outline}
    (hBelow : List.Forall₂ Appends below outlines) (before after : List Node) (node : Node) {stop : Nat}
    (hStop : stop = (before ++ node :: after).length) :
    linkAll before.length below (ofTree ⟨before ++ node :: after⟩) =
      ((), ofTree ⟨before ++ { node with children := node.children ++ positions stop outlines } ::
        (after ++ layouts stop outlines)⟩) := by
  induction hBelow generalizing node after stop with
  | nil =>
      rw [positions, layouts, List.append_nil, List.append_nil]
      rfl
  | @cons lower outline below outlines hLower hBelow ih =>
      have hLowered : lower (ofTree ⟨before ++ node :: after⟩) =
          (stop, ofTree ⟨before ++ node :: (after ++ outline.layout stop)⟩) := by
        rw [hLower, List.append_assoc, Tree.size, ← hStop]
        rfl
      have hLinked : link before.length stop (ofTree ⟨before ++ node :: (after ++ outline.layout stop)⟩) =
          ((), ofTree ⟨before ++ { node with children := node.children ++ [(stop : Int)] } ::
            (after ++ outline.layout stop)⟩) := by
        rw [link_ofTree, modify_between]
      have hNext : stop + outline.size =
          (before ++ { node with children := node.children ++ [(stop : Int)] } ::
            (after ++ outline.layout stop)).length := by
        rw [hStop]
        simp only [List.length_append, List.length_cons, length_layout]
        omega
      calc linkAll before.length (lower :: below) (ofTree ⟨before ++ node :: after⟩)
          = linkAll before.length below (link before.length (lower (ofTree ⟨before ++ node :: after⟩)).1
              (lower (ofTree ⟨before ++ node :: after⟩)).2).2 := rfl
        _ = linkAll before.length below (ofTree ⟨before ++
              { node with children := node.children ++ [(stop : Int)] } :: (after ++ outline.layout stop)⟩) := by
            rw [hLowered, hLinked]
        _ = _ := by
            rw [ih _ _ hNext, positions, layouts, List.append_assoc, List.append_assoc, List.singleton_append]

/-- A node that is added without children, and everything below it. -/
theorem appends_addAbove {below : List (StateM Arena Nat)} {outlines : List Outline}
    (hBelow : List.Forall₂ Appends below outlines) {node : Node} (hNone : node.children = []) :
    Appends (addAbove node below) (.mk node outlines) := by
  intro tree
  have hStop : tree.size + 1 = (tree.nodes ++ [node]).length := by
    rw [List.length_append, List.length_singleton, Tree.size]
  have hAdded := linkAll_ofTree hBelow tree.nodes [] node hStop
  calc addAbove node below (ofTree tree)
      = ((add node (ofTree tree)).1, (linkAll (add node (ofTree tree)).1 below (add node (ofTree tree)).2).2) := rfl
    _ = (tree.size, (linkAll tree.size below (ofTree (tree.push node))).2) := by
        rw [add_ofTree]
    _ = _ := by
        rw [show tree.size = tree.nodes.length from rfl, Tree.push, hAdded, hNone, layout]
        rfl

variable (objects : List String)

theorem appends_lowerExpression :
    ∀ expression : Expression, Appends (lowerExpression objects expression) (expression.outline (Term.lowered objects))
  | .number _ => appends_addAbove .nil rfl
  | .variable _ => appends_addAbove .nil rfl
  | .constant _ => appends_addAbove .nil rfl
  | .function _ => appends_addAbove .nil rfl
  | .arithmetic _ left right =>
      appends_addAbove (.cons (appends_lowerExpression left) (.cons (appends_lowerExpression right) .nil)) rfl

mutual

theorem appends_lowerCondition :
    ∀ condition : Condition, Appends (lowerCondition objects condition) (condition.outline (Term.lowered objects))
  | .conjunction parts => by
      rw [lowerCondition, Condition.outline]
      exact appends_addAbove (appends_lowerParts parts) rfl
  | .disjunction parts => by
      rw [lowerCondition, Condition.outline]
      exact appends_addAbove (appends_lowerParts parts) rfl
  | .negation part => by
      rw [lowerCondition, Condition.outline]
      exact appends_addAbove (.cons (appends_lowerCondition part) .nil) rfl
  | .atom head => by
      rw [lowerCondition, Condition.outline]
      exact appends_addAbove .nil rfl
  | .comparison op left right => by
      rw [lowerCondition, Condition.outline]
      exact appends_addAbove
        (.cons (appends_lowerExpression objects left) (.cons (appends_lowerExpression objects right) .nil)) rfl
  | .update op target amount => by
      rw [lowerCondition, Condition.outline]
      exact appends_addAbove
        (.cons (appends_lowerExpression objects (.function target))
          (.cons (appends_lowerExpression objects amount) .nil)) rfl
  | .quantified bindings slots none => by
      rw [lowerCondition, Condition.outline]
      exact appends_addAbove .nil rfl
  | .quantified bindings slots (some body) => by
      rw [lowerCondition, Condition.outline]
      exact appends_addAbove (.cons (appends_lowerCondition body) .nil) rfl

theorem appends_lowerParts :
    ∀ parts : List Condition,
      List.Forall₂ Appends (lowerParts objects parts) (Condition.partOutlines (Term.lowered objects) parts)
  | [] => .nil
  | part :: parts => .cons (appends_lowerCondition part) (appends_lowerParts parts)

end

/-- Lowering a condition into an arena answers the position of the first new node and leaves the tree with the block
of the condition appended. -/
theorem lowerCondition_ofTree (condition : Condition) (tree : Tree) :
    lowerCondition objects condition (ofTree tree) = (tree.size, ofTree (tree.pushCondition condition objects)) := by
  rw [appends_lowerCondition objects condition tree, condition.layout_outline]
  rfl

end Arena
end PlanLogic
