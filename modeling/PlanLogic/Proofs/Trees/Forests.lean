import PlanLogic.Proofs.Trees.Arenas
import PlanLogic.Proofs.Trees.Blocks

/-!
# Forests in preorder

Lowering a condition behind the nodes of a tree plants one more tree there.  Its nodes are those of the syntax in
preorder; every node but the first is the child of one other node, once; and what a node reaches is a range of
positions that starts with the node and in which the ranges of its children follow each other.  The trees that were
there before are not touched, so the roots are the old ones and the new one.

All of this holds of the layout of any outline.  The ranges come from below: once the ranges of the children of a node
follow each other, the node and they are the range of the node.
-/

namespace PlanLogic

/-- A node without its children. -/
def Node.head (node : Node) : Node :=
  { node with children := [] }

/-! ## The parts of the syntax -/

/-- The nodes of the parts of an expression in preorder, without their children. -/
def Expression.heads (objects : List String) : Expression → List Node
  | .number value => [{ kind := .number, value := value }]
  | .variable slot => [{ kind := .parameter, parameters := [⟨slotName objects slot, ""⟩] }]
  | .constant name => [{ kind := .constant, name := name }]
  | .function head => [{ kind := .function, name := head.name, parameters := head.parameters objects }]
  | .arithmetic op left right =>
    { kind := .expression, operator := op.symbol } :: (left.heads objects ++ right.heads objects)

namespace Condition

mutual

/-- The nodes of the parts of a condition in preorder, without their children. -/
def heads (objects : List String) : Condition → List Node
  | .conjunction parts => { kind := .conjunction } :: partHeads objects parts
  | .disjunction parts => { kind := .disjunction } :: partHeads objects parts
  | .negation part => { kind := .negation } :: heads objects part
  | .atom head => [{ kind := .predicate, name := head.name, parameters := head.parameters objects }]
  | .comparison op left right =>
    { kind := .expression, operator := op.symbol } :: (left.heads objects ++ right.heads objects)
  | .update op target amount =>
    { kind := .update, change := op.symbol } ::
      ((Expression.function target).heads objects ++ amount.heads objects)
  | .quantified bindings slots body =>
    { kind := .quantifier, parameters := quantifierParameters objects bindings slots } :: bodyHeads objects body

/-- The nodes of the parts of conditions. -/
def partHeads (objects : List String) : List Condition → List Node
  | [] => []
  | part :: parts => heads objects part ++ partHeads objects parts

/-- The nodes of the parts of a body, if there is one. -/
def bodyHeads (objects : List String) : Option Condition → List Node
  | none => []
  | some body => heads objects body

end

end Condition

section

variable (objects : List String)

theorem Expression.map_head_nodes : ∀ (expression : Expression) (start : Nat),
    (expression.nodes objects start).map Node.head = expression.heads objects
  | .number _, _ => rfl
  | .variable _, _ => rfl
  | .constant _, _ => rfl
  | .function _, _ => rfl
  | .arithmetic op left right, start => by
      rw [nodes, List.map_cons, List.map_append, left.map_head_nodes, right.map_head_nodes, heads]
      rfl

namespace Condition

theorem heads_ne_nil (condition : Condition) : condition.heads objects ≠ [] := by
  cases condition <;> simp [heads]

mutual

/-- The block of a condition has one node for each part of its syntax, in preorder. -/
theorem map_head_nodes : ∀ (condition : Condition) (start : Nat),
    (condition.nodes objects start).map Node.head = condition.heads objects
  | .conjunction parts, start => by
      rw [nodes, List.map_cons, map_head_partNodes parts, heads]
      rfl
  | .disjunction parts, start => by
      rw [nodes, List.map_cons, map_head_partNodes parts, heads]
      rfl
  | .negation part, start => by
      rw [nodes, List.map_cons, map_head_nodes part, heads]
      rfl
  | .atom head, start => by
      rw [nodes, heads]
      rfl
  | .comparison op left right, start => by
      rw [nodes, List.map_cons, List.map_append, left.map_head_nodes, right.map_head_nodes, heads]
      rfl
  | .update op target amount, start => by
      rw [nodes, List.map_cons, List.map_append, Expression.map_head_nodes, amount.map_head_nodes, heads]
      rfl
  | .quantified bindings slots none, start => by
      rw [nodes, heads]
      rfl
  | .quantified bindings slots (some body), start => by
      rw [nodes, bodyNodes, List.map_cons, map_head_nodes body, heads, bodyHeads]
      rfl

theorem map_head_partNodes : ∀ (parts : List Condition) (start : Nat),
    (partNodes objects start parts).2.map Node.head = partHeads objects parts
  | [], _ => by
      rw [partNodes, partHeads]
      rfl
  | part :: parts, start => by
      rw [partNodes, List.map_append, map_head_nodes part, map_head_partNodes parts, partHeads]

end

end Condition

end

namespace Outline

mutual

/-- In a block every position but the first occurs once as a child, and no other position does. -/
theorem count_layout (place : Int) : ∀ (outline : Outline) (start : Nat),
    ((outline.layout start).flatMap Node.children).count place =
      if (start : Int) < place ∧ place < (start + outline.size : Nat) then 1 else 0
  | .mk node children, start => by
      rw [layout, List.flatMap_cons, List.count_append, count_layouts place children (start + 1), size]
      exact if_congr (by omega) rfl rfl

/-- Below a parent every position of the blocks occurs once, the first ones among the children of the parent. -/
theorem count_layouts (place : Int) : ∀ (outlines : List Outline) (start : Nat),
    (positions start outlines).count place + ((layouts start outlines).flatMap Node.children).count place =
      if (start : Int) ≤ place ∧ place < (start + sizes outlines : Nat) then 1 else 0
  | [], start => by
      rw [sizes, if_neg (by omega)]
      rfl
  | outline :: outlines, start => by
      have hFirst := count_layout place outline start
      have hRest := count_layouts place outlines (start + outline.size)
      have hSize := outline.size_pos
      rw [positions, layouts, List.flatMap_append, List.count_append, List.count_cons, sizes]
      simp only [beq_iff_eq]
      split_ifs at hFirst hRest ⊢ <;> omega

end

end Outline

namespace Tree

/-! ## Ranges -/

/-- The positions that a reference reaches are those from the reference up to another position. -/
def Fills (tree : Tree) (reference stop : Int) : Prop :=
  ∀ place, tree.Reaches reference place ↔ reference ≤ place ∧ place < stop

/-- What the references in a list reach are ranges that follow each other, in the order of the list, from one
position up to another. -/
def Tiles (tree : Tree) : List Int → Int → Int → Prop
  | [], start, stop => start = stop
  | child :: children, start, stop => child = start ∧ ∃ next, tree.Fills child next ∧ tree.Tiles children next stop

variable {tree : Tree}

theorem Fills.lt {reference stop : Int} (hFills : tree.Fills reference stop) : reference < stop :=
  ((hFills reference).mp .refl).2

theorem Tiles.le {children : List Int} {start stop : Int} (hTiles : tree.Tiles children start stop) : start ≤ stop := by
  induction children generalizing start with
  | nil => exact Int.le_of_eq hTiles
  | cons child children ih =>
      obtain ⟨rfl, next, hFills, hRest⟩ := hTiles
      exact Int.le_trans (Int.le_of_lt hFills.lt) (ih hRest)

/-- Together the references of a list reach the whole range. -/
theorem Tiles.exists_reaches_iff {children : List Int} {start stop : Int} (hTiles : tree.Tiles children start stop)
    (place : Int) : (∃ child ∈ children, tree.Reaches child place) ↔ start ≤ place ∧ place < stop := by
  induction children generalizing start with
  | nil =>
      obtain rfl : start = stop := hTiles
      simp
  | cons child children ih =>
      obtain ⟨rfl, next, hFills, hRest⟩ := hTiles
      have hLess := hFills.lt
      have hStop := hRest.le
      rw [List.exists_mem_cons_iff, hFills place, ih hRest]
      omega

/-- If the ranges of the children of a node follow it, the node and they are its range. -/
theorem fills_of_tiles {reference stop : Int} {node : Node} (hNode : tree.node? reference = some node)
    (hTiles : tree.Tiles node.children (reference + 1) stop) : tree.Fills reference stop := by
  intro place
  have hBelow : (∃ child, tree.HasChild reference child ∧ Relation.ReflTransGen tree.HasChild child place) ↔
      reference + 1 ≤ place ∧ place < stop := by
    rw [← hTiles.exists_reaches_iff]
    constructor
    · rintro ⟨child, ⟨same, hSame, hMem⟩, hReaches⟩
      obtain rfl := Option.some.inj (hNode.symm.trans hSame)
      exact ⟨child, hMem, hReaches⟩
    · rintro ⟨child, hMem, hReaches⟩
      exact ⟨child, ⟨node, hNode, hMem⟩, hReaches⟩
  have hStop := hTiles.le
  rw [Reaches, Relation.ReflTransGen.cases_head_iff, hBelow]
  omega

open Outline

mutual

/-- A block is the range of its first node. -/
theorem fills_layout : ∀ (outline : Outline) {start : Nat}, tree.HasBlock start (outline.layout start) →
    tree.Fills start (start + outline.size : Nat)
  | .mk node children, start, hBlock => by
      rw [layout, hasBlock_cons] at hBlock
      have hTiles := tiles_layouts children hBlock.2
      refine fills_of_tiles hBlock.1 ?_
      rwa [Outline.size, Nat.add_comm (sizes children), ← Nat.add_assoc, ← Int.natCast_succ]

/-- Consecutive blocks are ranges that follow each other. -/
theorem tiles_layouts : ∀ (outlines : List Outline) {start : Nat}, tree.HasBlock start (layouts start outlines) →
    tree.Tiles (positions start outlines) start (start + sizes outlines : Nat)
  | [], _, _ => rfl
  | outline :: outlines, start, hBlock => by
      rw [layouts, hasBlock_append, length_layout] at hBlock
      have hRest := tiles_layouts outlines hBlock.2
      rw [Nat.add_assoc] at hRest
      exact ⟨rfl, _, fills_layout outline hBlock.1, hRest⟩

end

mutual

/-- The ranges of all nodes of a block. -/
theorem ranges_layout : ∀ (outline : Outline) {start : Nat}, tree.HasBlock start (outline.layout start) →
    ∀ {index : Nat} {node : Node}, (outline.layout start)[index]? = some node →
      ∃ stop, tree.Fills (start + index : Nat) stop ∧ tree.Tiles node.children ((start + index : Nat) + 1) stop
  | .mk node children, start, hBlock, 0, found, hNode => by
      obtain rfl := Option.some.inj hNode
      rw [layout, hasBlock_cons] at hBlock
      have hTiles := tiles_layouts children hBlock.2
      exact ⟨_, fills_of_tiles hBlock.1 hTiles, hTiles⟩
  | .mk node children, start, hBlock, index + 1, found, hNode => by
      rw [layout, hasBlock_cons] at hBlock
      rw [layout, List.getElem?_cons_succ] at hNode
      have hRanges := ranges_layouts children hBlock.2 hNode
      rwa [Nat.add_assoc, Nat.add_comm 1] at hRanges

theorem ranges_layouts : ∀ (outlines : List Outline) {start : Nat}, tree.HasBlock start (layouts start outlines) →
    ∀ {index : Nat} {node : Node}, (layouts start outlines)[index]? = some node →
      ∃ stop, tree.Fills (start + index : Nat) stop ∧ tree.Tiles node.children ((start + index : Nat) + 1) stop
  | [], _, _, _, _, hNode => by simp [layouts] at hNode
  | outline :: outlines, start, hBlock, index, node, hNode => by
      rw [layouts, hasBlock_append, length_layout] at hBlock
      rw [layouts] at hNode
      by_cases hFirst : index < outline.size
      · rw [List.getElem?_append_left (by rwa [length_layout])] at hNode
        exact ranges_layout outline hBlock.1 hNode
      · rw [List.getElem?_append_right (by rw [length_layout]; omega), length_layout] at hNode
        have hRanges := ranges_layouts outlines hBlock.2 hNode
        rwa [show start + outline.size + (index - outline.size) = start + index by omega] at hRanges

end

/-! ## Planting -/

/-- Behind the nodes of a tree one more tree was planted.  Its nodes without their children are those of a list, in
order. -/
structure Planted (tree after : Tree) (heads : List Node) : Prop where
  nodes_kept : after.nodes.take tree.size = tree.nodes
  nodes_new : (after.nodes.drop tree.size).map Node.head = heads
  /-- A child of a new node is a new node behind it. -/
  children_behind : ∀ {position : Nat} {node : Node}, tree.size ≤ position → after.nodes[position]? = some node →
    ∀ child ∈ node.children, (position : Int) < child ∧ child < after.size
  /-- The first new node is nobody's child. -/
  parents_first : after.references.count (tree.size : Int) = 0
  /-- Every other new node is the child of one node, once. -/
  parents_rest : ∀ {position : Nat}, tree.size < position → position < after.size →
    after.references.count (position : Int) = 1
  /-- What a new node reaches is a range in which the ranges of its children follow each other. -/
  ranges : ∀ {position : Nat} {node : Node}, tree.size ≤ position → after.nodes[position]? = some node →
    ∃ stop, after.Fills position stop ∧ after.Tiles node.children (position + 1) stop

/-- All references of a tree are in range. -/
def InRange (tree : Tree) : Prop :=
  ∀ node ∈ tree.nodes, ∀ child ∈ node.children, 0 ≤ child ∧ child < (tree.size : Int)

theorem InRange.count_eq_zero (hInRange : tree.InRange) {place : Int} (hPlace : tree.size ≤ place) :
    tree.references.count place = 0 := by
  rw [List.count_eq_zero]
  intro hMem
  obtain ⟨node, hNode, hChild⟩ := List.mem_flatMap.mp hMem
  exact absurd (hInRange node hNode place hChild).2 (Int.not_lt.mpr hPlace)

/-- Laying out an outline behind the nodes of a tree plants it there. -/
theorem planted_layout (hInRange : tree.InRange) (outline : Outline) :
    tree.Planted ⟨tree.nodes ++ outline.layout tree.size⟩ ((outline.layout tree.size).map Node.head) := by
  have hBlock : (Tree.mk (tree.nodes ++ outline.layout tree.size)).HasBlock tree.size (outline.layout tree.size) := by
    have hBetween := hasBlock_between tree.nodes (outline.layout tree.size) []
    rwa [List.append_nil] at hBetween
  have hSize : (Tree.mk (tree.nodes ++ outline.layout tree.size)).size = tree.size + outline.size := by
    rw [size, List.length_append, length_layout]
    rfl
  -- A new position has an index in the block.
  have hIndex {position : Nat} {node : Node} (hNew : tree.size ≤ position)
      (hNode : (tree.nodes ++ outline.layout tree.size)[position]? = some node) :
      ∃ index, position = tree.size + index ∧ (outline.layout tree.size)[index]? = some node := by
    rw [List.getElem?_append_right hNew] at hNode
    exact ⟨position - tree.size, by omega, hNode⟩
  have hCount {place : Nat} (hPlace : tree.size ≤ place) :
      (Tree.mk (tree.nodes ++ outline.layout tree.size)).references.count (place : Int) =
        if (tree.size : Int) < place ∧ (place : Int) < (tree.size + outline.size : Nat) then 1 else 0 := by
    rw [references, List.flatMap_append, List.count_append, count_layout]
    exact (congrArg (· + _) (hInRange.count_eq_zero (Int.ofNat_le.mpr hPlace))).trans (Nat.zero_add _)
  refine ⟨List.take_left, congrArg (List.map Node.head) List.drop_left, ?_, ?_, ?_, ?_⟩
  · intro position node hNew hNode child hMem
    obtain ⟨index, rfl, hIn⟩ := hIndex hNew hNode
    rw [hSize]
    exact children_layout outline hIn child hMem
  · rw [hCount (Nat.le_refl _), if_neg (by omega)]
  · intro position hNew hPosition
    rw [hSize] at hPosition
    rw [hCount (Nat.le_of_lt hNew), if_pos (by omega)]
  · intro position node hNew hNode
    obtain ⟨index, rfl, hIn⟩ := hIndex hNew hNode
    exact ranges_layout outline hBlock hIn

section

variable {after : Tree} {heads : List Node} (hPlanted : tree.Planted after heads)

include hPlanted

/-- The references of the new nodes come after those that were there. -/
theorem Planted.references_eq :
    after.references = tree.references ++ (after.nodes.drop tree.size).flatMap Node.children := by
  rw [references, references, ← List.flatMap_append]
  conv_rhs => rw [← hPlanted.nodes_kept]
  rw [List.take_append_drop]

/-- No new node refers to an old one. -/
theorem Planted.mem_references_iff {position : Nat} (hOld : position < tree.size) :
    (position : Int) ∈ after.references ↔ (position : Int) ∈ tree.references := by
  rw [hPlanted.references_eq, List.mem_append, or_iff_left]
  intro hMem
  obtain ⟨node, hNode, hChild⟩ := List.mem_flatMap.mp hMem
  obtain ⟨index, hIndex⟩ := List.getElem?_of_mem hNode
  rw [List.getElem?_drop] at hIndex
  have hBehind := hPlanted.children_behind (Nat.le_add_right _ _) hIndex _ hChild
  omega

/-- Planting adds one root. -/
theorem Planted.roots_eq (hSome : heads ≠ []) : after.roots = tree.roots ++ [tree.size] := by
  have hLength : after.size - tree.size = heads.length := by
    rw [← hPlanted.nodes_new, List.length_map, List.length_drop]
    rfl
  obtain ⟨count, hCount⟩ := Nat.exists_eq_add_one_of_ne_zero (List.length_pos_iff.mpr hSome).ne'
  have hSize : after.size = tree.size + (count + 1) := by omega
  have hOld : (List.range tree.size).filter (fun position : Nat => !after.references.contains (position : Int)) =
      tree.roots := by
    refine List.filter_congr fun position hPosition => ?_
    have hSame := hPlanted.mem_references_iff (List.mem_range.mp hPosition)
    rw [Bool.eq_iff_iff]
    simp [hSame]
  have hFirst : (!after.references.contains (tree.size : Int)) = true := by
    simp [List.count_eq_zero.mp hPlanted.parents_first]
  have hRest : (((List.range count).map Nat.succ).map (tree.size + ·)).filter
      (fun position : Nat => !after.references.contains (position : Int)) = [] := by
    rw [List.filter_eq_nil_iff]
    simp only [List.mem_map, List.mem_range]
    rintro _ ⟨_, ⟨offset, hOffset, rfl⟩, rfl⟩
    have hNew : tree.size < tree.size + offset.succ := by omega
    have hOnce := hPlanted.parents_rest hNew (by omega)
    have hMem := List.count_pos_iff.mp (Nat.lt_of_lt_of_eq Nat.zero_lt_one hOnce.symm)
    simpa using hMem
  rw [roots, hSize, List.range_add, List.filter_append, hOld, List.range_succ_eq_map, List.map_cons, List.filter_cons,
    Nat.add_zero, if_pos hFirst, hRest]

end

/-- Lowering a condition behind the nodes of a tree whose references are in range numbers the new nodes by their
positions, answers the first of them, and plants one tree, whose nodes are those of the syntax in preorder.  The
roots are the old ones and the first new node. -/
theorem lowerCondition_planted (hInRange : tree.InRange) (condition : Condition) (objects : List String) :
    let after := tree.pushCondition condition objects
    Arena.lowerCondition objects condition (.ofTree tree) = (tree.size, .ofTree after) ∧
      tree.Planted after (condition.heads objects) ∧
      after.roots = tree.roots ++ [tree.size] := by
  intro after
  have hPlanted : tree.Planted after (condition.heads objects) := by
    have hLayout := planted_layout hInRange (condition.outline (Term.lowered objects))
    rwa [condition.layout_outline, condition.map_head_nodes] at hLayout
  exact ⟨Arena.lowerCondition_ofTree objects condition tree, hPlanted,
    hPlanted.roots_eq (condition.heads_ne_nil objects)⟩

/-- A conjunction behind a negated atom. -/
theorem lowerCondition_planted_conjunction :
    let tree : Tree := ⟨[{ kind := .negation, children := [1] }, { kind := .predicate, name := "p" }]⟩
    let condition := Condition.conjunction [.atom ⟨"q", []⟩, .negation (.atom ⟨"r", [.slot 0]⟩)]
    let after := tree.pushCondition condition ["a"]
    tree.InRange ∧
      Arena.lowerCondition ["a"] condition (.ofTree tree) = (2, .ofTree after) ∧
      tree.Planted after (condition.heads ["a"]) ∧
      after.roots = tree.roots ++ [2] ∧
      tree.roots = [0] := by
  intro tree condition after
  have hInRange : tree.InRange := by
    simp [InRange, tree, size]
  obtain ⟨hLowered, hPlanted, hRoots⟩ := lowerCondition_planted hInRange condition ["a"]
  exact ⟨hInRange, hLowered, hPlanted, hRoots, by decide⟩

end Tree
end PlanLogic
