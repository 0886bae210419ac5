import PlanLogic.Tree.Grounding
import PlanLogic.Tree.Rendering
import Mathlib.Data.Set.Function

/-!
# Mirrored parts of trees

A part of a tree can occur in another tree under other positions.  The one mirrors the other if each node of the
part has a counterpart that differs from it only in that its children are renumbered too.

Renaming parameters below a node changes the same names on both sides, so the parts still mirror each other.  A
height that decreases from a node to its children says how far the recursions on trees have to go: a depth above
the height of a node is never used up, so different depths make no difference.
-/

namespace PlanLogic

/-- The node with its children renumbered. -/
def Node.renumber (number : Int → Int) (node : Node) : Node :=
  { node with children := node.children.map number }

namespace Tree

/-- The nodes of a part of one tree and their counterparts in another one, with the heights of the nodes. -/
structure Mirrors (tree other : Tree) (number : Int → Int) (part : Set Int) (height : Int → Nat) : Prop where
  injective : Set.InjOn number part
  node : ∀ {reference : Int}, reference ∈ part → ∃ node, tree.node? reference = some node ∧
    other.node? (number reference) = some (node.renumber number) ∧
      ∀ child ∈ node.children, child ∈ part ∧ height child < height reference
  height_lt : ∀ {reference : Int}, reference ∈ part → height reference < tree.size
  height_lt_other : ∀ {reference : Int}, reference ∈ part → height reference < other.size

theorem size_modify (tree : Tree) (position : Nat) (change : Node → Node) :
    (tree.modify position change).size = tree.size :=
  List.length_modify ..

theorem node?_modify {tree : Tree} {place : Int} (hPlace : 0 ≤ place) (change : Node → Node) (reference : Int) :
    (tree.modify place.toNat change).node? reference =
      if reference = place then (tree.node? reference).map change else tree.node? reference := by
  rw [node?, node?]
  by_cases hSign : 0 ≤ reference
  · rw [if_pos hSign, if_pos hSign, modify, List.getElem?_modify, Option.map_eq_map]
    by_cases hHere : reference = place
    · rw [if_pos hHere, hHere]
      simp
    · have hNat : place.toNat ≠ reference.toNat := by omega
      rw [if_neg hHere]
      simp [hNat]
  · rw [if_neg hSign, if_neg hSign, if_neg (by omega)]

namespace Mirrors

variable {tree other : Tree} {number : Int → Int} {part : Set Int} {height : Int → Nat}

theorem nonneg (hMirrors : Mirrors tree other number part height) {reference : Int} (hMem : reference ∈ part) :
    0 ≤ reference ∧ 0 ≤ number reference := by
  obtain ⟨node, hNode, hOther, -⟩ := hMirrors.node hMem
  exact ⟨(node?_lt hNode).1, (node?_lt hOther).1⟩

/-- Renaming the parameters of one node and of its counterpart. -/
theorem modify (hMirrors : Mirrors tree other number part height) (names : Renaming) {place : Int}
    (hPlace : place ∈ part) :
    Mirrors (tree.modify place.toNat (Node.rename names)) (other.modify (number place).toNat (Node.rename names))
      number part height := by
  obtain ⟨hHere, hThere⟩ := hMirrors.nonneg hPlace
  refine ⟨hMirrors.injective, fun {reference} hMem => ?_, fun hMem => ?_, fun hMem => ?_⟩
  · obtain ⟨node, hNode, hOther, hChildren⟩ := hMirrors.node hMem
    rw [node?_modify hHere, node?_modify hThere, hNode, hOther]
    by_cases hSame : reference = place
    · rw [if_pos hSame, if_pos (congrArg number hSame)]
      exact ⟨node.rename names, rfl, rfl, hChildren⟩
    · rw [if_neg hSame, if_neg fun hNumber => hSame (hMirrors.injective hMem hPlace hNumber)]
      exact ⟨node, rfl, rfl, hChildren⟩
  · rw [size_modify]
    exact hMirrors.height_lt hMem
  · rw [size_modify]
    exact hMirrors.height_lt_other hMem

/-- Renaming below a node and its counterpart. -/
theorem renameWithin (names : Renaming) {depth : Nat} : ∀ {bound : Nat} {tree other : Tree} {reference : Int},
    Mirrors tree other number part height → reference ∈ part → height reference < depth →
      height reference < bound →
        Mirrors (Tree.renameWithin names depth reference tree)
          (Tree.renameWithin names bound (number reference) other) number part height := by
  induction depth with
  | zero => exact fun _ _ hDepth => absurd hDepth (Nat.not_lt_zero _)
  | succ depth ih =>
      intro bound tree other reference hMirrors hMem hDepth hBound
      obtain ⟨bound, rfl⟩ := Nat.exists_eq_add_one_of_ne_zero (Nat.ne_zero_of_lt hBound)
      obtain ⟨node, hNode, hOther, hChildren⟩ := hMirrors.node hMem
      -- The children are renamed one after the other, each in the tree that the ones before it have left.
      have hFold : ∀ (children : List Int) {tree other : Tree},
          (∀ child ∈ children, child ∈ part ∧ height child < height reference) →
            Mirrors tree other number part height →
              Mirrors (children.foldl (fun current child => Tree.renameWithin names depth child current) tree)
                ((children.map number).foldl (fun current child => Tree.renameWithin names bound child current) other)
                number part height := by
        intro children
        induction children with
        | nil => exact fun _ hMirrors => hMirrors
        | cons child children ihChildren =>
            intro tree other hMems hMirrors
            obtain ⟨⟨hChild, hLower⟩, hRest⟩ := List.forall_mem_cons.mp hMems
            exact ihChildren hRest (ih hMirrors hChild (by omega) (by omega))
      rw [Tree.renameWithin, Tree.renameWithin, hNode, hOther]
      exact (hFold node.children hChildren hMirrors).modify names hMem

/-- Renaming all parameters below a node and its counterpart. -/
theorem rename (hMirrors : Mirrors tree other number part height) (names : Renaming) {reference : Int}
    (hMem : reference ∈ part) :
    Mirrors (tree.rename reference.toNat names) (other.rename (number reference).toNat names) number part height := by
  obtain ⟨hHere, hThere⟩ := hMirrors.nonneg hMem
  rw [Tree.rename, Tree.rename, Int.toNat_of_nonneg hHere, Int.toNat_of_nonneg hThere]
  exact hMirrors.renameWithin names hMem (hMirrors.height_lt hMem) (hMirrors.height_lt_other hMem)

/-- Counterparts have the same text. -/
theorem textWithin_eq (hMirrors : Mirrors tree other number part height) {depth : Nat} :
    ∀ {bound : Nat} {reference : Int}, reference ∈ part → height reference < depth → height reference < bound →
      tree.textWithin depth reference = other.textWithin bound (number reference) := by
  induction depth with
  | zero => exact fun _ hDepth => absurd hDepth (Nat.not_lt_zero _)
  | succ depth ih =>
      intro bound reference hMem hDepth hBound
      obtain ⟨bound, rfl⟩ := Nat.exists_eq_add_one_of_ne_zero (Nat.ne_zero_of_lt hBound)
      obtain ⟨node, hNode, hOther, hChildren⟩ := hMirrors.node hMem
      have hTexts : node.children.map (tree.textWithin depth) =
          (node.renumber number).children.map (other.textWithin bound) := by
        rw [Node.renumber, List.map_map]
        refine List.map_congr_left fun child hChild => ?_
        obtain ⟨hChildMem, hLower⟩ := hChildren child hChild
        exact ih hChildMem (by omega) (by omega)
      rw [textWithin, textWithin, hNode, hOther]
      simp only
      rw [hTexts]
      rfl

theorem isEmpty_eq_false (hMirrors : Mirrors tree other number part height) {reference : Int}
    (hMem : reference ∈ part) : tree.isEmpty = false ∧ other.isEmpty = false := by
  have hHere := hMirrors.height_lt hMem
  have hThere := hMirrors.height_lt_other hMem
  rw [size] at hHere hThere
  rw [isEmpty, isEmpty, List.isEmpty_eq_false_iff, List.isEmpty_eq_false_iff, ← List.length_pos_iff,
    ← List.length_pos_iff]
  omega

theorem text_eq (hMirrors : Mirrors tree other number part height) {reference : Int} (hMem : reference ∈ part) :
    tree.text reference = other.text (number reference) := by
  obtain ⟨hSome, hOtherSome⟩ := hMirrors.isEmpty_eq_false hMem
  rw [text, text, hSome, hOtherSome]
  exact hMirrors.textWithin_eq hMem (Nat.lt_succ_of_lt (hMirrors.height_lt hMem))
    (Nat.lt_succ_of_lt (hMirrors.height_lt_other hMem))

end Mirrors
end Tree
end PlanLogic
