import PlanLogic.Tree.Grounding
import PlanLogic.Tree.Lowering

/-!
# Outlines of trees

A condition is lowered to a block of consecutive nodes.  The outline of a block forgets positions: it is a
node with the outlines of its children, and laying it out from a position gives the block back.  A tree may
hold a block anywhere among other nodes.

Renaming below the first node of a block changes the names in that block, each once, and nothing else.  So the
block stays a laid-out outline through any number of renamings.
-/

namespace PlanLogic

/-- A node with the outlines of its children; the children that the node itself lists play no part. -/
inductive Outline where
  | mk (node : Node) (children : List Outline)

/-- A node with its parameters renamed by a function. -/
def Node.mapNames (rename : String → String) (node : Node) : Node :=
  { node with parameters := node.parameters.map fun parameter =>
      { parameter with name := rename parameter.name } }

theorem Node.mapNames_mapNames (first second : String → String) (node : Node) :
    (node.mapNames first).mapNames second = node.mapNames (second ∘ first) := by
  simp [Node.mapNames]

namespace Outline

mutual

/-- The number of nodes. -/
def size : Outline → Nat
  | .mk _ children => sizes children + 1

/-- The number of nodes of several outlines. -/
def sizes : List Outline → Nat
  | [] => 0
  | outline :: outlines => outline.size + sizes outlines

end

/-- The positions of the first nodes of consecutive blocks. -/
def positions (start : Nat) : List Outline → List Int
  | [] => []
  | outline :: outlines => (start : Int) :: positions (start + outline.size) outlines

mutual

/-- The block of an outline whose first node has position `start`. -/
def layout (start : Nat) : Outline → List Node
  | .mk node children =>
    { node with children := positions (start + 1) children } :: layouts (start + 1) children

/-- Consecutive blocks. -/
def layouts (start : Nat) : List Outline → List Node
  | [] => []
  | outline :: outlines => outline.layout start ++ layouts (start + outline.size) outlines

end

mutual

/-- The outline with all parameters renamed by a function. -/
def mapNames (rename : String → String) : Outline → Outline
  | .mk node children => .mk (node.mapNames rename) (mapAllNames rename children)

/-- Outlines with all parameters renamed by a function. -/
def mapAllNames (rename : String → String) : List Outline → List Outline
  | [] => []
  | outline :: outlines => outline.mapNames rename :: mapAllNames rename outlines

end

mutual

@[simp] theorem length_layout (start : Nat) :
    ∀ outline : Outline, (outline.layout start).length = outline.size
  | .mk node children => by rw [layout, List.length_cons, length_layouts, size]

@[simp] theorem length_layouts (start : Nat) :
    ∀ outlines : List Outline, (layouts start outlines).length = sizes outlines
  | [] => rfl
  | outline :: outlines => by rw [layouts, List.length_append, length_layout, length_layouts, sizes]

end

theorem size_pair (node : Node) (left right : Outline) :
    (Outline.mk node [left, right]).size = left.size + right.size + 1 := by
  rw [size, sizes, sizes, sizes]
  rfl

theorem size_pos (outline : Outline) : 0 < outline.size := by
  cases outline
  rw [size]
  exact Nat.succ_pos _

mutual

@[simp] theorem size_mapNames (rename : String → String) :
    ∀ outline : Outline, (outline.mapNames rename).size = outline.size
  | .mk node children => by rw [mapNames, size, size, sizes_mapAllNames]

@[simp] theorem sizes_mapAllNames (rename : String → String) :
    ∀ outlines : List Outline, sizes (mapAllNames rename outlines) = sizes outlines
  | [] => rfl
  | outline :: outlines => by rw [mapAllNames, sizes, sizes, size_mapNames, sizes_mapAllNames]

end

theorem positions_mapAllNames (rename : String → String) (start : Nat) (outlines : List Outline) :
    positions start (mapAllNames rename outlines) = positions start outlines := by
  induction outlines generalizing start with
  | nil => rfl
  | cons outline outlines ih => rw [mapAllNames, positions, positions, size_mapNames, ih]

mutual

/-- Renaming commutes with laying out. -/
theorem layout_mapNames (rename : String → String) (start : Nat) :
    ∀ outline : Outline,
      (outline.mapNames rename).layout start = (outline.layout start).map (Node.mapNames rename)
  | .mk node children => by
      rw [mapNames, layout, layout, List.map_cons, positions_mapAllNames, layouts_mapAllNames]
      rfl

theorem layouts_mapAllNames (rename : String → String) (start : Nat) :
    ∀ outlines : List Outline,
      layouts start (mapAllNames rename outlines) = (layouts start outlines).map (Node.mapNames rename)
  | [] => rfl
  | outline :: outlines => by
      rw [mapAllNames, layouts, layouts, List.map_append, layout_mapNames, layouts_mapAllNames, size_mapNames]

end

end Outline

namespace Tree

open Outline

/-! ## Blocks of a tree -/

/-- A tree holds a block of nodes from a position on. -/
def HasBlock (tree : Tree) (start : Nat) (block : List Node) : Prop :=
  ∀ index node, block[index]? = some node → tree.nodes[start + index]? = some node

theorem hasBlock_append {tree : Tree} {start : Nat} {left right : List Node} :
    tree.HasBlock start (left ++ right) ↔
      tree.HasBlock start left ∧ tree.HasBlock (start + left.length) right := by
  constructor
  · intro hBlock
    constructor
    · intro index node hNode
      apply hBlock
      obtain ⟨hRange, -⟩ := List.getElem?_eq_some_iff.mp hNode
      rw [List.getElem?_append_left hRange]
      exact hNode
    · intro index node hNode
      rw [Nat.add_assoc]
      apply hBlock
      rw [List.getElem?_append_right (Nat.le_add_right _ _), Nat.add_sub_cancel_left]
      exact hNode
  · intro hBlocks index node hNode
    obtain ⟨hLeft, hRight⟩ := hBlocks
    by_cases hRange : index < left.length
    · rw [List.getElem?_append_left hRange] at hNode
      exact hLeft index node hNode
    · rw [List.getElem?_append_right (Nat.le_of_not_lt hRange)] at hNode
      have hFound := hRight _ _ hNode
      rwa [show start + left.length + (index - left.length) = start + index by omega] at hFound

/-- A block with a first node. -/
theorem hasBlock_cons {tree : Tree} {start : Nat} {node : Node} {rest : List Node} :
    tree.HasBlock start (node :: rest) ↔ tree.node? start = some node ∧ tree.HasBlock (start + 1) rest := by
  rw [show node :: rest = [node] ++ rest from rfl, hasBlock_append, List.length_singleton]
  have hFirst : tree.HasBlock start [node] ↔ tree.node? start = some node := by
    rw [node?, if_pos (Int.natCast_nonneg start), Int.toNat_natCast]
    constructor
    · intro hBlock
      exact hBlock 0 node rfl
    · intro hNode index found hFound
      cases index with
      | zero =>
          obtain rfl := Option.some.inj hFound
          exact hNode
      | succ index => simp at hFound
  rw [hFirst]

/-- The block of a node with two children. -/
theorem hasBlock_pair {tree : Tree} {start : Nat} {node : Node} {left right : Outline} :
    tree.HasBlock start ((Outline.mk node [left, right]).layout start) ↔
      tree.node? start = some { node with children := [↑(start + 1), ↑(start + 1 + left.size)] } ∧
        tree.HasBlock (start + 1) (left.layout (start + 1)) ∧
        tree.HasBlock (start + 1 + left.size) (right.layout (start + 1 + left.size)) := by
  rw [layout, hasBlock_cons, layouts, layouts, layouts, List.append_nil, hasBlock_append, length_layout]
  rfl

/-- A block lies inside its tree. -/
theorem HasBlock.length_le {tree : Tree} {start : Nat} {block : List Node}
    (hBlock : tree.HasBlock start block)
    (hSome : block ≠ []) : start + block.length ≤ tree.size := by
  have hLast : block[block.length - 1]? = some (block.getLast hSome) := by
    rw [List.getLast_eq_getElem, List.getElem?_eq_getElem]
  have hRange := (List.getElem?_eq_some_iff.mp (hBlock _ _ hLast)).1
  have hLength := List.length_pos_iff.mpr hSome
  rw [size]
  omega

/-! ## Renaming a block -/

/-- The tree with `count` nodes renamed from a position on. -/
def renameRange (names : Renaming) (start count : Nat) (tree : Tree) : Tree :=
  ⟨tree.nodes.mapIdx fun index node =>
    if start ≤ index ∧ index < start + count then node.rename names else node⟩

theorem getElem?_renameRange (names : Renaming) (start count : Nat) (tree : Tree) (index : Nat) :
    (tree.renameRange names start count).nodes[index]? =
      (tree.nodes[index]?).map fun node =>
        if start ≤ index ∧ index < start + count then node.rename names else node :=
  List.getElem?_mapIdx

theorem ext_getElem? {left right : Tree}
    (hSame : ∀ index : Nat, left.nodes[index]? = right.nodes[index]?) : left = right := by
  obtain ⟨leftNodes⟩ := left
  obtain ⟨rightNodes⟩ := right
  exact congrArg Tree.mk (List.ext_getElem? hSame)

theorem renameRange_zero (names : Renaming) (start : Nat) (tree : Tree) :
    tree.renameRange names start 0 = tree := by
  apply ext_getElem?
  intro index
  rw [getElem?_renameRange]
  cases tree.nodes[index]? with
  | none => rfl
  | some node => rw [Option.map_some, if_neg (by omega)]

/-- Two neighbouring ranges. -/
theorem renameRange_add (names : Renaming) (start first second : Nat) (tree : Tree) :
    (tree.renameRange names start first).renameRange names (start + first) second =
      tree.renameRange names start (first + second) := by
  apply ext_getElem?
  intro index
  rw [getElem?_renameRange, getElem?_renameRange, getElem?_renameRange, Option.map_map]
  congr 1
  funext node
  show (if _ then (if _ then node.rename names else node).rename names else
    if _ then node.rename names else node) = _
  by_cases hFirst : start ≤ index ∧ index < start + first
  · rw [if_pos hFirst, if_neg (by omega), if_pos (by omega)]
  · rw [if_neg hFirst]
    by_cases hSecond : start + first ≤ index ∧ index < start + first + second
    · rw [if_pos hSecond, if_pos (by omega)]
    · rw [if_neg hSecond, if_neg (by omega)]

/-- A node before a range. -/
theorem modify_renameRange (names : Renaming) (start count : Nat) (tree : Tree) :
    (tree.renameRange names (start + 1) count).modify start (Node.rename names) =
      tree.renameRange names start (count + 1) := by
  apply ext_getElem?
  intro index
  rw [modify, List.getElem?_modify, Option.map_eq_map, getElem?_renameRange, getElem?_renameRange,
    Option.map_map]
  congr 1
  funext node
  show (if start = index then (if _ then node.rename names else node).rename names else
    if _ then node.rename names else node) = _
  by_cases hHere : start = index
  · rw [if_pos hHere, if_neg (by omega), if_pos (by omega)]
  · rw [if_neg hHere]
    by_cases hRange : start + 1 ≤ index ∧ index < start + 1 + count
    · rw [if_pos hRange, if_pos (by omega)]
    · rw [if_neg hRange, if_neg (by omega)]

/-- Renaming before a block leaves the block as it is. -/
theorem HasBlock.renameRange_before {tree : Tree} {place : Nat} {block : List Node}
    (hBlock : tree.HasBlock place block) (names : Renaming) {start count : Nat}
    (hBefore : start + count ≤ place) :
    (tree.renameRange names start count).HasBlock place block := by
  intro index node hNode
  rw [getElem?_renameRange, hBlock index node hNode, Option.map_some, if_neg (by omega)]

/-- Renaming a block renames each of its nodes. -/
theorem HasBlock.renameRange_self {tree : Tree} {start : Nat} {block : List Node}
    (hBlock : tree.HasBlock start block) (names : Renaming) :
    (tree.renameRange names start block.length).HasBlock start (block.map (Node.rename names)) := by
  intro index node hNode
  rw [List.getElem?_map, Option.map_eq_some_iff] at hNode
  obtain ⟨old, hOld, rfl⟩ := hNode
  have hRange := (List.getElem?_eq_some_iff.mp hOld).1
  rw [getElem?_renameRange, hBlock index old hOld, Option.map_some, if_pos (by omega)]

mutual

/-- Renaming below the first node of a laid-out outline renames its block. -/
theorem renameWithin_layout (names : Renaming) :
    ∀ (outline : Outline) (depth start : Nat) (tree : Tree), outline.size ≤ depth →
      tree.HasBlock start (outline.layout start) →
        renameWithin names depth start tree = tree.renameRange names start outline.size
  | .mk node children, 0, start, tree, hDepth, _ => by
      rw [Outline.size] at hDepth
      omega
  | .mk node children, depth + 1, start, tree, hDepth, hBlock => by
      rw [layout, hasBlock_cons] at hBlock
      obtain ⟨hNode, hChildren⟩ := hBlock
      rw [Outline.size] at hDepth ⊢
      have hFold := foldl_renameWithin names children depth (start + 1) tree (by omega) hChildren
      rw [renameWithin, hNode]
      simp only [Int.toNat_natCast]
      rw [hFold, modify_renameRange]

theorem foldl_renameWithin (names : Renaming) :
    ∀ (outlines : List Outline) (depth start : Nat) (tree : Tree), sizes outlines ≤ depth →
      tree.HasBlock start (layouts start outlines) →
        (positions start outlines).foldl (fun current child => renameWithin names depth child current) tree =
          tree.renameRange names start (sizes outlines)
  | [], depth, start, tree, _, _ => by
      rw [positions, List.foldl_nil, sizes, renameRange_zero]
  | outline :: outlines, depth, start, tree, hDepth, hBlock => by
      rw [layouts, hasBlock_append, length_layout] at hBlock
      obtain ⟨hFirst, hRest⟩ := hBlock
      rw [sizes] at hDepth ⊢
      have hHere := renameWithin_layout names outline depth start tree (by omega) hFirst
      -- The blocks behind the first one are still there once it is renamed.
      have hAfter := hRest.renameRange_before names (Nat.le_refl (start + outline.size))
      have hLater := foldl_renameWithin names outlines depth (start + outline.size)
        (tree.renameRange names start outline.size) (by omega) hAfter
      rw [positions, List.foldl_cons, hHere, hLater, renameRange_add]

end

/-- A renamed tree holds the renamed block of an outline. -/
theorem HasBlock.rename {tree : Tree} {start : Nat} {outline : Outline}
    (hBlock : tree.HasBlock start (outline.layout start)) (names : Renaming) :
    (tree.rename start names).HasBlock start ((outline.mapNames names.apply).layout start) := by
  have hSome : outline.layout start ≠ [] := by
    rw [← List.length_pos_iff, length_layout]
    exact outline.size_pos
  have hLength := hBlock.length_le hSome
  rw [length_layout] at hLength
  rw [Tree.rename, renameWithin_layout names outline tree.size start tree (by omega) hBlock, layout_mapNames]
  have hRenamed := hBlock.renameRange_self names
  rw [length_layout] at hRenamed
  exact hRenamed

end Tree
end PlanLogic
