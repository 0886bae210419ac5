import PlanLogic.Proofs.Trees.Mirrors
import Mathlib.Data.Set.Card
import Mathlib.Logic.Relation
import Mathlib.Order.Interval.Finset.Defs
import Mathlib.Data.Int.Interval

/-!
# What a node reaches

A tree is a list of nodes with references between them, so a node can be reached along several paths, and the same
nodes can stand in another order elsewhere.  If the part that a node reaches has no cycles, the number of nodes
strictly below a node decreases from a node to its children, and it is less than the number of nodes of the tree.  So
it is a height for that part, and a renumbering of the part makes two trees mirror each other.
-/

namespace PlanLogic
namespace Tree

/-- The node at one reference has the other reference as a child. -/
def HasChild (tree : Tree) (reference child : Int) : Prop :=
  ∃ node, tree.node? reference = some node ∧ child ∈ node.children

/-- There is a path, perhaps an empty one, from one reference to the other. -/
def Reaches (tree : Tree) : Int → Int → Prop :=
  Relation.ReflTransGen tree.HasChild

/-- The references strictly below a reference. -/
def below (tree : Tree) (reference : Int) : Set Int :=
  {child | Relation.TransGen tree.HasChild reference child}

/-- The part of a tree from a reference on has no cycles, and all its references are in range. -/
structure SoundFrom (tree : Tree) (root : Int) : Prop where
  inRange : ∀ {reference : Int}, tree.Reaches root reference → ∃ node, tree.node? reference = some node
  acyclic : ∀ {reference : Int}, tree.Reaches root reference → reference ∉ tree.below reference

/-- A bijection between what is reached in one tree and what is reached in another one, which keeps everything in a
node and the order of its children. -/
structure Renumbering (tree : Tree) (root : Int) (other : Tree) (place : Int) (number : Int → Int) : Prop where
  maps_root : number root = place
  bijective : Set.BijOn number {reference | tree.Reaches root reference} {reference | other.Reaches place reference}
  node : ∀ {reference : Int} {node : Node}, tree.Reaches root reference → tree.node? reference = some node →
    other.node? (number reference) = some (node.renumber number)

theorem below_subset {tree : Tree} {root reference : Int} (hReaches : tree.Reaches root reference) :
    tree.below reference ⊆ {reference | tree.Reaches root reference} :=
  fun _ hBelow => hReaches.trans hBelow.to_reflTransGen

namespace SoundFrom

variable {tree other : Tree} {root : Int} (hSound : tree.SoundFrom root)

include hSound

theorem finite_reaches : {reference | tree.Reaches root reference}.Finite := by
  refine (Set.finite_Ico (0 : Int) tree.size).subset fun reference hReaches => ?_
  obtain ⟨node, hNode⟩ := hSound.inRange hReaches
  exact Set.mem_Ico.mpr (node?_lt hNode)

theorem finite_below {reference : Int} (hReaches : tree.Reaches root reference) : (tree.below reference).Finite :=
  hSound.finite_reaches.subset (below_subset hReaches)

/-- Fewer nodes are below a child than below its parent. -/
theorem ncard_below_lt {reference child : Int} (hReaches : tree.Reaches root reference)
    (hChild : tree.HasChild reference child) : (tree.below child).ncard < (tree.below reference).ncard := by
  refine Set.ncard_lt_ncard ⟨fun _ hBelow => Relation.TransGen.head hChild hBelow, fun hSubset => ?_⟩
    (hSound.finite_below hReaches)
  have hChildBelow : child ∈ tree.below reference := Relation.TransGen.single hChild
  exact hSound.acyclic (hReaches.tail hChild) (hSubset hChildBelow)

/-- Wherever the nodes are, there are more of them than are below one of them. -/
theorem ncard_below_lt_size {number : Int → Int}
    (hInjective : Set.InjOn number {reference | tree.Reaches root reference})
    (hRange : ∀ {reference : Int}, tree.Reaches root reference → ∃ node, other.node? (number reference) = some node)
    {reference : Int} (hReaches : tree.Reaches root reference) : (tree.below reference).ncard < other.size := by
  have hSubset : insert reference (tree.below reference) ⊆ {reference | tree.Reaches root reference} :=
    Set.insert_subset hReaches (below_subset hReaches)
  have hImage : number '' insert reference (tree.below reference) ⊆ Set.Ico 0 (other.size : Int) := by
    rintro _ ⟨found, hFound, rfl⟩
    obtain ⟨node, hNode⟩ := hRange (hSubset hFound)
    exact Set.mem_Ico.mpr (node?_lt hNode)
  calc (tree.below reference).ncard
      < (insert reference (tree.below reference)).ncard := by
        rw [Set.ncard_insert_of_notMem (hSound.acyclic hReaches) (hSound.finite_below hReaches)]
        exact Nat.lt_succ_self _
    _ = (number '' insert reference (tree.below reference)).ncard :=
        (Set.InjOn.ncard_image (hInjective.mono hSubset)).symm
    _ ≤ (Set.Ico 0 (other.size : Int)).ncard := Set.ncard_le_ncard hImage (Set.finite_Ico _ _)
    _ = other.size := by
        rw [← Finset.coe_Ico, Set.ncard_coe_finset, Int.card_Ico, Int.sub_zero, Int.toNat_natCast]

/-- Two trees mirror each other along a renumbering. -/
theorem mirrors {place : Int} {number : Int → Int} (hNumber : Renumbering tree root other place number) :
    Mirrors tree other number {reference | tree.Reaches root reference}
      (fun reference => (tree.below reference).ncard) where
  injective := hNumber.bijective.injOn
  node {reference} hReaches := by
    obtain ⟨node, hNode⟩ := hSound.inRange hReaches
    refine ⟨node, hNode, hNumber.node hReaches hNode, fun child hMem => ?_⟩
    have hChild : tree.HasChild reference child := ⟨node, hNode, hMem⟩
    exact ⟨hReaches.tail hChild, hSound.ncard_below_lt hReaches hChild⟩
  height_lt := hSound.ncard_below_lt_size (Set.injOn_id _) hSound.inRange
  height_lt_other := hSound.ncard_below_lt_size hNumber.bijective.injOn fun hReaches => by
    obtain ⟨node, hNode⟩ := hSound.inRange hReaches
    exact ⟨_, hNumber.node hReaches hNode⟩

end SoundFrom

/-- Where every child is in range and stands behind its parent, there are no cycles. -/
theorem soundFrom_of_children {tree : Tree}
    (hChildren : ∀ {index : Nat} {node : Node}, tree.nodes[index]? = some node → ∀ child ∈ node.children,
      index < child ∧ child < tree.size) {root : Int} (hLow : 0 ≤ root) (hHigh : root < tree.size) :
    tree.SoundFrom root := by
  have hStep {reference child : Int} (hChild : tree.HasChild reference child) :
      reference < child ∧ child < tree.size := by
    obtain ⟨node, hNode, hMem⟩ := hChild
    obtain ⟨index, rfl⟩ := Int.eq_ofNat_of_zero_le (node?_lt hNode).1
    rw [node?, if_pos (Int.natCast_nonneg index), Int.toNat_natCast] at hNode
    exact hChildren hNode child hMem
  have hRange {reference : Int} (hReaches : tree.Reaches root reference) :
      0 ≤ reference ∧ reference < tree.size := by
    induction hReaches with
    | refl => exact ⟨hLow, hHigh⟩
    | tail _ hChild ih => exact ⟨Int.le_trans ih.1 (Int.le_of_lt (hStep hChild).1), (hStep hChild).2⟩
  refine ⟨fun hReaches => ?_, fun _ hBelow => ?_⟩
  · obtain ⟨hFrom, hTo⟩ := hRange hReaches
    rw [node?, if_pos hFrom]
    exact ⟨_, List.getElem?_eq_getElem (by rw [size] at hTo; omega)⟩
  · have hLess {reference child : Int} (hPath : Relation.TransGen tree.HasChild reference child) :
        reference < child := by
      induction hPath with
      | single hChild => exact (hStep hChild).1
      | tail _ hChild ih => exact Int.lt_trans ih (hStep hChild).1
    exact Int.lt_irrefl _ (hLess hBelow)

namespace Renumbering

/-- A tree in the same numbering. -/
theorem refl (tree : Tree) (root : Int) : Renumbering tree root tree root id where
  maps_root := rfl
  bijective := Set.bijOn_id _
  node {reference node} _ hNode := by
    rw [id, hNode, Node.renumber, List.map_id]

/-- What the counterparts of nodes reach are counterparts. -/
theorem of_injOn {tree other : Tree} {root : Int} {number : Int → Int}
    (hInjective : Set.InjOn number {reference | tree.Reaches root reference})
    (hNode : ∀ {reference : Int}, tree.Reaches root reference → ∃ node, tree.node? reference = some node ∧
      other.node? (number reference) = some (node.renumber number)) :
    Renumbering tree root other (number root) number where
  maps_root := rfl
  bijective := by
    refine ⟨fun reference hReaches => ?_, hInjective, fun found hFound => ?_⟩
    · show other.Reaches (number root) (number reference)
      induction hReaches with
      | refl => exact .refl
      | tail hReaches hChild ih =>
          obtain ⟨node, hHere, hMem⟩ := hChild
          obtain ⟨same, hSame, hThere⟩ := hNode hReaches
          obtain rfl := Option.some.inj (hHere.symm.trans hSame)
          exact ih.tail ⟨_, hThere, List.mem_map_of_mem hMem⟩
    · show ∃ reference, tree.Reaches root reference ∧ number reference = found
      induction (hFound : other.Reaches (number root) found) with
      | refl => exact ⟨root, .refl, rfl⟩
      | tail _ hChild ih =>
          obtain ⟨reference, hReaches, rfl⟩ := ih
          obtain ⟨node, hHere, hThere⟩ := hNode hReaches
          obtain ⟨found, hFound, hMem⟩ := hChild
          obtain rfl := Option.some.inj (hThere.symm.trans hFound)
          obtain ⟨child, hOwn, hSame⟩ := List.mem_map.mp hMem
          exact ⟨child, hReaches.tail ⟨node, hHere, hOwn⟩, hSame⟩
  node hReaches hHere := by
    obtain ⟨same, hSame, hThere⟩ := hNode hReaches
    rw [hThere, Option.some.inj (hHere.symm.trans hSame)]

end Renumbering
end Tree
end PlanLogic
