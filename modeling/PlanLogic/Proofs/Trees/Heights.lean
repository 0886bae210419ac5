import PlanLogic.Proofs.Trees.Reachability

/-!
# Heights of trees without cycles

A tree without cycles may still have references that are out of range, and nodes with several parents.  The height
of a reference is the number of nodes that it reaches, its own included.  It falls along every reference from a node
to a child, is zero out of range, and is never more than the number of nodes of the tree.

Heights depend on the children of the nodes only, so a renaming of parameters keeps them.
-/

namespace PlanLogic
namespace Tree

/-- No path leads from a reference back to it. -/
def Acyclic (tree : Tree) : Prop :=
  ∀ reference, reference ∉ tree.below reference

/-- Heights are positive where there are nodes, fall from a node to its children, and are bounded by the number of
nodes. -/
structure Graded (tree : Tree) (height : Int → Nat) : Prop where
  node_pos : ∀ {reference : Int} {node : Node}, tree.node? reference = some node → 0 < height reference
  child_lt : ∀ {reference child : Int}, tree.HasChild reference child → height child < height reference
  le_size : ∀ reference, height reference ≤ tree.size

/-- The positions of the nodes that a reference reaches. -/
def reached (tree : Tree) (reference : Int) : Set Int :=
  {place | tree.Reaches reference place ∧ 0 ≤ place ∧ place < tree.size}

/-- How many nodes a reference reaches. -/
noncomputable def height (tree : Tree) (reference : Int) : Nat :=
  (tree.reached reference).ncard

theorem exists_node?_iff {tree : Tree} {reference : Int} :
    (∃ node, tree.node? reference = some node) ↔ 0 ≤ reference ∧ reference < tree.size := by
  constructor
  · rintro ⟨node, hNode⟩
    exact node?_lt hNode
  · rintro ⟨hLow, hHigh⟩
    rw [node?, if_pos hLow]
    exact ⟨_, List.getElem?_eq_getElem (by rw [size] at hHigh; omega)⟩

theorem node?_eq_none {tree : Tree} {reference : Int} (hOutside : ¬ (0 ≤ reference ∧ reference < tree.size)) :
    tree.node? reference = none :=
  Option.eq_none_iff_forall_ne_some.mpr fun _ hNode => hOutside (node?_lt hNode)

variable {tree other : Tree} {height : Int → Nat} {reference : Int}

theorem finite_reached : (tree.reached reference).Finite :=
  (Set.finite_Ico 0 (tree.size : Int)).subset fun _ hPlace => hPlace.2

/-- Without cycles a tree is graded by the numbers of nodes that are reached. -/
theorem Acyclic.graded (hAcyclic : tree.Acyclic) : tree.Graded tree.height where
  node_pos {reference node} hNode := by
    rw [Tree.height, Set.ncard_pos finite_reached]
    exact ⟨reference, .refl, node?_lt hNode⟩
  child_lt {reference child} hChild := by
    have ⟨node, hNode, _⟩ := hChild
    refine Set.ncard_lt_ncard ⟨fun place hPlace => ⟨.head hChild hPlace.1, hPlace.2⟩, fun hSubset => ?_⟩ finite_reached
    -- The child does not reach its parent.
    have hOwn : reference ∈ tree.reached reference := ⟨.refl, node?_lt hNode⟩
    have hBack : tree.Reaches child reference := (hSubset hOwn).1
    exact hAcyclic reference (Relation.TransGen.head' hChild hBack)
  le_size reference := by
    calc (tree.reached reference).ncard
        ≤ (Set.Ico 0 (tree.size : Int)).ncard := Set.ncard_le_ncard (fun _ hPlace => hPlace.2) (Set.finite_Ico _ _)
      _ = tree.size := by
          rw [← Finset.coe_Ico, Set.ncard_coe_finset, Int.card_Ico, Int.sub_zero, Int.toNat_natCast]

/-- Where heights fall from a node to its children, there are no cycles. -/
theorem acyclic_of_child_lt
    (hFalls : ∀ {reference child : Int}, tree.HasChild reference child → height child < height reference) :
    tree.Acyclic := by
  intro reference hBelow
  have hLess {reference place : Int} (hPath : Relation.TransGen tree.HasChild reference place) :
      height place < height reference := by
    induction hPath with
    | single hChild => exact hFalls hChild
    | tail _ hChild ih => exact (hFalls hChild).trans ih
  exact Nat.lt_irrefl _ (hLess hBelow)

/-- Where every child stands behind its parent, or before all nodes, there are no cycles. -/
theorem acyclic_of_children
    (hChildren : ∀ entry ∈ tree.nodes.zipIdx, ∀ child ∈ entry.1.children, child < 0 ∨ (entry.2 : Int) < child) :
    tree.Acyclic := by
  have hStep {reference child : Int} (hChild : tree.HasChild reference child) :
      0 ≤ reference ∧ (child < 0 ∨ reference < child) := by
    obtain ⟨node, hNode, hMem⟩ := hChild
    obtain ⟨index, rfl⟩ := Int.eq_ofNat_of_zero_le (node?_lt hNode).1
    rw [node?, if_pos (Int.natCast_nonneg index), Int.toNat_natCast] at hNode
    exact ⟨Int.natCast_nonneg index, hChildren (node, index) (List.mk_mem_zipIdx_iff_getElem?.mpr hNode) child hMem⟩
  have hForward {reference place : Int} (hPath : Relation.TransGen tree.HasChild reference place) :
      place < 0 ∨ reference < place := by
    induction hPath with
    | single hChild => exact (hStep hChild).2
    | tail _ hChild ih =>
        have hNext := hStep hChild
        omega
  intro reference hBelow
  obtain ⟨child, hChild, -⟩ := Relation.TransGen.head'_iff.mp hBelow
  have hStart := hStep hChild
  have hBack := hForward hBelow
  omega

/-! ## Shapes -/

/-- Two trees have as many nodes, with the same children. -/
def SameShape (tree other : Tree) : Prop :=
  tree.nodes.map Node.children = other.nodes.map Node.children

namespace SameShape

variable (hShape : tree.SameShape other)

include hShape

theorem flip : other.SameShape tree :=
  Eq.symm hShape

theorem size_eq : tree.size = other.size := by
  have hLength := congrArg List.length hShape
  rwa [List.length_map, List.length_map] at hLength

theorem map_children_node? (reference : Int) :
    (tree.node? reference).map Node.children = (other.node? reference).map Node.children := by
  rw [node?, node?]
  split
  · rw [← List.getElem?_map, ← List.getElem?_map, show tree.nodes.map Node.children = _ from hShape]
  · rfl

theorem node? {node : Node} (hNode : tree.node? reference = some node) :
    ∃ found, other.node? reference = some found ∧ found.children = node.children := by
  have hChildren := hShape.map_children_node? reference
  rw [hNode] at hChildren
  exact Option.map_eq_some_iff.mp hChildren.symm

theorem hasChild {child : Int} (hChild : other.HasChild reference child) : tree.HasChild reference child := by
  obtain ⟨node, hNode, hMem⟩ := hChild
  obtain ⟨found, hFound, hSame⟩ := hShape.flip.node? hNode
  exact ⟨found, hFound, hSame ▸ hMem⟩

theorem graded (hGraded : tree.Graded height) : other.Graded height where
  node_pos hNode := by
    obtain ⟨found, hFound, -⟩ := hShape.flip.node? hNode
    exact hGraded.node_pos hFound
  child_lt hChild := hGraded.child_lt (hShape.hasChild hChild)
  le_size reference := hShape.size_eq ▸ hGraded.le_size reference

end SameShape

theorem sameShape_modify (tree : Tree) (position : Nat) (names : Renaming) :
    tree.SameShape (tree.modify position (Node.rename names)) := by
  rw [SameShape, modify]
  refine List.ext_getElem? fun index => ?_
  rw [List.getElem?_map, List.getElem?_map, List.getElem?_modify, Option.map_eq_map, Option.map_map]
  congr 1
  funext node
  rw [Function.comp_apply]
  split
  · rfl
  · rfl

/-- Renaming keeps the shape. -/
theorem sameShape_renameWithin (names : Renaming) (depth : Nat) (reference : Int) (tree : Tree) :
    tree.SameShape (renameWithin names depth reference tree) := by
  induction depth generalizing reference tree with
  | zero => rfl
  | succ depth ih =>
      rw [renameWithin]
      split
      · rfl
      next node _ =>
      have hChildren : ∀ (children : List Int) (tree : Tree),
          tree.SameShape (children.foldl (fun current child => renameWithin names depth child current) tree) := by
        intro children
        induction children with
        | nil => exact fun _ => rfl
        | cons child children ihChildren => exact fun tree => (ih child tree).trans (ihChildren _)
      exact (hChildren node.children tree).trans (sameShape_modify _ _ names)

theorem sameShape_rename (names : Renaming) (position : Nat) (tree : Tree) :
    tree.SameShape (tree.rename position names) :=
  sameShape_renameWithin names tree.size position tree

end Tree
end PlanLogic
