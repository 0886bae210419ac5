import PlanLogic.Proofs.Compilation.Layout
import PlanLogic.Proofs.Trees.Reachability

/-!
# Blocks at other positions

Laying out an outline from another position moves all references by the same distance.  In a block every child
stands behind its parent, so the distance to the end of the block is a height, and two trees that hold the block
of one outline, anywhere among other nodes, mirror each other there.
-/

namespace PlanLogic
namespace Outline

theorem positions_shift (offset : Int) (outlines : List Outline) {start place : Nat}
    (hPlace : (place : Int) = start + offset) :
    positions place outlines = (positions start outlines).map (· + offset) := by
  induction outlines generalizing start place with
  | nil => rfl
  | cons outline outlines ih =>
      have hNext : ((place + outline.size : Nat) : Int) = (start + outline.size : Nat) + offset := by omega
      rw [positions, positions, List.map_cons, ih hNext, hPlace]

mutual

/-- A block laid out from another position. -/
theorem layout_shift (offset : Int) : ∀ (outline : Outline) {start place : Nat}, (place : Int) = start + offset →
    outline.layout place = (outline.layout start).map (Node.renumber (· + offset))
  | .mk node children, start, place, hPlace => by
      have hNext : ((place + 1 : Nat) : Int) = (start + 1 : Nat) + offset := by omega
      rw [layout, layout, List.map_cons, layouts_shift offset children hNext, positions_shift offset children hNext]
      rfl

theorem layouts_shift (offset : Int) : ∀ (outlines : List Outline) {start place : Nat},
    (place : Int) = start + offset →
      layouts place outlines = (layouts start outlines).map (Node.renumber (· + offset))
  | [], _, _, _ => rfl
  | outline :: outlines, start, place, hPlace => by
      have hNext : ((place + outline.size : Nat) : Int) = (start + outline.size : Nat) + offset := by omega
      rw [layouts, layouts, List.map_append, layout_shift offset outline hPlace, layouts_shift offset outlines hNext]

end

theorem mem_positions {outlines : List Outline} {start : Nat} {child : Int} (hMem : child ∈ positions start outlines) :
    (start : Int) ≤ child ∧ child < (start + sizes outlines : Nat) := by
  induction outlines generalizing start with
  | nil => exact absurd hMem List.not_mem_nil
  | cons outline outlines ih =>
      have hSize := outline.size_pos
      rw [sizes]
      rcases List.mem_cons.mp hMem with rfl | hLater
      · omega
      · have hBounds := ih hLater
        omega

mutual

/-- A child of a node in a block stands behind the node, in the same block. -/
theorem children_layout : ∀ (outline : Outline) {start index : Nat} {node : Node},
    (outline.layout start)[index]? = some node → ∀ child ∈ node.children,
      (start + index : Nat) < child ∧ child < (start + outline.size : Nat)
  | .mk node children, start, 0, found, hNode, child, hMem => by
      obtain rfl := Option.some.inj hNode
      have hBounds := mem_positions hMem
      rw [size]
      omega
  | .mk node children, start, index + 1, found, hNode, child, hMem => by
      rw [layout, List.getElem?_cons_succ] at hNode
      have hBounds := children_layouts children hNode child hMem
      rw [size]
      omega

theorem children_layouts : ∀ (outlines : List Outline) {start index : Nat} {node : Node},
    (layouts start outlines)[index]? = some node → ∀ child ∈ node.children,
      (start + index : Nat) < child ∧ child < (start + sizes outlines : Nat)
  | [], _, _, _, hNode, _, _ => by simp [layouts] at hNode
  | outline :: outlines, start, index, node, hNode, child, hMem => by
      rw [layouts] at hNode
      rw [sizes]
      by_cases hFirst : index < outline.size
      · rw [List.getElem?_append_left (by rwa [length_layout])] at hNode
        have hBounds := children_layout outline hNode child hMem
        omega
      · rw [List.getElem?_append_right (by rw [length_layout]; omega), length_layout] at hNode
        have hBounds := children_layouts outlines hNode child hMem
        omega

end

end Outline

namespace Tree

open Outline

theorem HasBlock.node? {tree : Tree} {start : Nat} {block : List Node} (hBlock : tree.HasBlock start block)
    {index : Nat} {node : Node} (hNode : block[index]? = some node) : tree.node? (start + index : Nat) = some node := by
  rw [Tree.node?, if_pos (Int.natCast_nonneg _), Int.toNat_natCast]
  exact hBlock index node hNode

theorem HasBlock.size_le {tree : Tree} {start : Nat} {outline : Outline}
    (hBlock : tree.HasBlock start (outline.layout start)) : start + outline.size ≤ tree.size := by
  have hLength := hBlock.length_le (List.length_pos_iff.mp (by rw [length_layout]; exact outline.size_pos))
  rwa [length_layout] at hLength

/-- A tree that starts with the block of an outline, and a tree that holds it at any place, mirror each other
there. -/
theorem mirrors_of_hasBlock {outline : Outline} {tree other : Tree} {place : Nat}
    (hBlock : tree.HasBlock 0 (outline.layout 0)) (hOther : other.HasBlock place (outline.layout place)) :
    tree.Mirrors other (· + (place : Int)) {reference | 0 ≤ reference ∧ reference < outline.size}
      (fun reference => outline.size - 1 - reference.toNat) where
  injective _ _ _ _ hSame := (Int.add_left_inj _).mp hSame
  node {reference} hMem := by
    obtain ⟨hLow, hHigh⟩ := hMem
    obtain ⟨index, rfl⟩ := Int.eq_ofNat_of_zero_le hLow
    have hIndex : index < (outline.layout 0).length := by
      rw [length_layout]
      omega
    have hNode := List.getElem?_eq_getElem hIndex
    have hCounterpart : (outline.layout place)[index]? =
        some ((outline.layout 0)[index].renumber (· + (place : Int))) := by
      rw [layout_shift place outline (Int.zero_add _).symm, List.getElem?_map, hNode]
      rfl
    have hHere := hBlock.node? hNode
    rw [Nat.zero_add] at hHere
    refine ⟨_, hHere, ?_, fun child hChild => ?_⟩
    · have hThere := hOther.node? hCounterpart
      rwa [Nat.add_comm, Int.natCast_add] at hThere
    · obtain ⟨hAfter, hBefore⟩ := children_layout outline hNode child hChild
      exact ⟨⟨by omega, by omega⟩, by omega⟩
  height_lt _ := by
    have hSize := hBlock.size_le
    have hPositive := outline.size_pos
    omega
  height_lt_other _ := by
    have hSize := hOther.size_le
    have hPositive := outline.size_pos
    omega

/-- A tree holds any block of consecutive nodes of its list. -/
theorem hasBlock_between (before block after : List Node) :
    (Tree.mk (before ++ block ++ after)).HasBlock before.length block := by
  intro index node hNode
  have hRange := (List.getElem?_eq_some_iff.mp hNode).1
  show (before ++ block ++ after)[before.length + index]? = some node
  rw [List.append_assoc, List.getElem?_append_right (Nat.le_add_right _ _), Nat.add_sub_cancel_left,
    List.getElem?_append_left hRange, hNode]

section

variable (condition : Condition) (objects : List String)

/-- The tree of a condition has no cycles, and all its references are in range. -/
theorem soundFrom_ofCondition {root : Int} (hLow : 0 ≤ root)
    (hHigh : root < (ofCondition (some condition) objects).size) :
    (ofCondition (some condition) objects).SoundFrom root := by
  refine soundFrom_of_children (fun {index node} hNode child hMem => ?_) hLow hHigh
  rw [ofCondition_eq_layout] at hNode
  have hBounds := children_layout _ hNode child hMem
  rwa [Nat.zero_add, Nat.zero_add, ← size_ofCondition] at hBounds

/-- The tree of a condition and any other tree that holds its block. -/
theorem mirrors_ofCondition {other : Tree} {place : Nat}
    (hBlock : other.HasBlock place ((condition.outline (Term.lowered objects)).layout place)) :
    (ofCondition (some condition) objects).Mirrors other (· + (place : Int))
      {reference | 0 ≤ reference ∧ reference < (condition.outline (Term.lowered objects)).size}
      (fun reference => (condition.outline (Term.lowered objects)).size - 1 - reference.toNat) :=
  mirrors_of_hasBlock (hasBlock_ofCondition condition objects) hBlock

theorem zero_mem_ofCondition :
    (0 : Int) ∈ {reference : Int | 0 ≤ reference ∧ reference < (condition.outline (Term.lowered objects)).size} :=
  ⟨Int.le_refl 0, Int.natCast_pos.mpr (condition.outline (Term.lowered objects)).size_pos⟩

end

end Tree
end PlanLogic
