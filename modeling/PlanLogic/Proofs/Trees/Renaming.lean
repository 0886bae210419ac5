import PlanLogic.Proofs.Compilation.Outline
import PlanLogic.Proofs.Trees.Heights
import Mathlib.Logic.Function.Iterate

/-!
# Renaming below a node

Several paths can lead from one node to another.  Renaming below the first renames the second once for each of them,
so a name is replaced as often as there are paths.  That is one simultaneous substitution as long as it makes no
difference how often a name is replaced: where no two paths lead to the same node, whatever the names are, and in
any tree if no name that is put in is itself replaced.

Renaming changes nothing but the names of parameters, so two trees of which one was renamed into the other have the
same nodes up to these names.
-/

namespace PlanLogic
namespace Tree

/-! ## Paths -/

/-- The number of paths with at most `depth` nodes from a reference to a place where there is a node. -/
def pathsWithin (tree : Tree) : Nat → Int → Int → Nat
  | 0, _, _ => 0
  | depth + 1, reference, place =>
    match tree.node? reference with
    | none => 0
    | some node =>
      (node.children.map fun child => pathsWithin tree depth child place).sum +
        if place = reference then 1 else 0

/-- The number of paths from a reference to a place; without cycles no path has more nodes than the tree. -/
def paths (tree : Tree) (reference place : Int) : Nat :=
  tree.pathsWithin tree.size reference place

variable {tree other : Tree} {height : Int → Nat} {reference place : Int} {names : Renaming}

/-- Paths depend on the children of the nodes only. -/
theorem SameShape.pathsWithin_eq (hShape : tree.SameShape other) (depth : Nat) (reference place : Int) :
    tree.pathsWithin depth reference place = other.pathsWithin depth reference place := by
  induction depth generalizing reference with
  | zero => rfl
  | succ depth ih =>
      rw [pathsWithin, pathsWithin]
      cases hNode : tree.node? reference with
      | none =>
          have hChildren := hShape.map_children_node? reference
          rw [hNode, Option.map_none, eq_comm, Option.map_eq_none_iff] at hChildren
          rw [hChildren]
      | some node =>
          obtain ⟨found, hFound, hSame⟩ := hShape.node? hNode
          rw [hFound]
          dsimp only
          rw [hSame, List.map_congr_left fun child _ => ih child]

/-- Depths above the height of a reference find the same paths. -/
theorem Graded.pathsWithin_eq (hGraded : tree.Graded height) (place : Int) {depth : Nat} :
    ∀ {bound : Nat} {reference : Int}, height reference ≤ depth → height reference ≤ bound →
      tree.pathsWithin depth reference place = tree.pathsWithin bound reference place := by
  have hNone {reference : Int} (hHeight : height reference ≤ 0) (depth : Nat) :
      tree.pathsWithin depth reference place = 0 := by
    cases depth with
    | zero => rfl
    | succ depth =>
        rw [pathsWithin]
        cases hNode : tree.node? reference with
        | none => rfl
        | some node => exact absurd (hGraded.node_pos hNode) (Nat.not_lt.mpr hHeight)
  induction depth with
  | zero =>
      intro bound reference hDepth _
      rw [hNone hDepth, hNone hDepth]
  | succ depth ih =>
      intro bound reference hDepth hBound
      cases bound with
      | zero => rw [hNone hBound, hNone hBound]
      | succ bound =>
          rw [pathsWithin, pathsWithin]
          cases hNode : tree.node? reference with
          | none => rfl
          | some node =>
              dsimp only
              congr 2
              refine List.map_congr_left fun child hMem => ?_
              have hLower := hGraded.child_lt ⟨node, hNode, hMem⟩
              exact ih (by omega) (by omega)

/-- A path goes on through one of the children, unless it ends here. -/
theorem Acyclic.paths_eq (hAcyclic : tree.Acyclic) {node : Node} (hNode : tree.node? reference = some node)
    (place : Int) :
    tree.paths reference place =
      (node.children.map fun child => tree.paths child place).sum + if place = reference then 1 else 0 := by
  have hGraded := hAcyclic.graded
  have hRange := node?_lt hNode
  obtain ⟨depth, hDepth⟩ := Nat.exists_eq_add_one_of_ne_zero (show tree.size ≠ 0 by omega)
  have hChildren : (node.children.map fun child => tree.pathsWithin depth child place) =
      node.children.map fun child => tree.paths child place := by
    refine List.map_congr_left fun child hMem => ?_
    have hLower := hGraded.child_lt ⟨node, hNode, hMem⟩
    have hHeight := hGraded.le_size reference
    exact hGraded.pathsWithin_eq place (by omega) (hGraded.le_size child)
  rw [paths, hDepth, pathsWithin, hNode]
  dsimp only
  rw [hChildren]

theorem reaches_of_pathsWithin_pos {depth : Nat} (hPositive : 0 < tree.pathsWithin depth reference place) :
    tree.Reaches reference place ∧ ∃ node, tree.node? place = some node := by
  induction depth generalizing reference with
  | zero => exact absurd hPositive (Nat.not_lt_zero 0)
  | succ depth ih =>
      rw [pathsWithin] at hPositive
      cases hNode : tree.node? reference with
      | none =>
          rw [hNode] at hPositive
          exact absurd hPositive (Nat.not_lt_zero 0)
      | some node =>
          rw [hNode] at hPositive
          by_cases hHere : place = reference
          · rw [hHere]
            exact ⟨.refl, node, hNode⟩
          · simp only [if_neg hHere, Nat.add_zero] at hPositive
            obtain ⟨_, hMem, hCount⟩ := List.sum_pos_iff_exists_pos_nat.mp hPositive
            obtain ⟨child, hChild, rfl⟩ := List.mem_map.mp hMem
            obtain ⟨hReaches, hFound⟩ := ih hCount
            exact ⟨.head ⟨node, hNode, hChild⟩ hReaches, hFound⟩

/-- Without cycles there are paths to the nodes that are reached, and to no other places. -/
theorem Acyclic.paths_pos_iff (hAcyclic : tree.Acyclic) :
    0 < tree.paths reference place ↔ tree.Reaches reference place ∧ ∃ node, tree.node? place = some node := by
  refine ⟨reaches_of_pathsWithin_pos, ?_⟩
  rintro ⟨hReaches, node, hNode⟩
  induction hReaches using Relation.ReflTransGen.head_induction_on with
  | refl =>
      rw [hAcyclic.paths_eq hNode, if_pos rfl]
      exact Nat.succ_pos _
  | head hChild _ ih =>
      obtain ⟨parent, hParent, hMem⟩ := hChild
      rw [hAcyclic.paths_eq hParent]
      refine Nat.add_pos_left (List.sum_pos_iff_exists_pos_nat.mpr ⟨_, ?_, ih⟩) _
      exact List.mem_map_of_mem hMem

/-! ## What renaming does to a node -/

/-- Renaming below a reference renames each node once for each path to it. -/
theorem node?_renameWithin (names : Renaming) (depth : Nat) (reference place : Int) (tree : Tree) :
    (renameWithin names depth reference tree).node? place =
      (tree.node? place).map (Node.rename names)^[tree.pathsWithin depth reference place] := by
  induction depth generalizing reference tree with
  | zero => exact (Option.map_id_apply).symm
  | succ depth ih =>
      rw [renameWithin, pathsWithin]
      cases hNode : tree.node? reference with
      | none => exact (Option.map_id_apply).symm
      | some node =>
          -- The children are renamed in trees that were renamed before, but the paths are the same there.
          have hFold : ∀ (children : List Int) (current : Tree), tree.SameShape current →
              (children.foldl (fun current child => renameWithin names depth child current) current).node? place =
                (current.node? place).map
                  (Node.rename names)^[(children.map fun child => tree.pathsWithin depth child place).sum] := by
            intro children
            induction children with
            | nil => exact fun _ _ => Option.map_id_apply.symm
            | cons child children ihChildren =>
                intro current hShape
                have hNext := hShape.trans (sameShape_renameWithin names depth child current)
                rw [List.foldl_cons, ihChildren _ hNext, ih, Option.map_map, ← Function.iterate_add,
                  ← hShape.pathsWithin_eq, List.map_cons, List.sum_cons, Nat.add_comm]
          dsimp only
          rw [node?_modify (node?_lt hNode).1, hFold node.children tree rfl]
          split
          · rw [Option.map_map, ← Function.iterate_succ']
          · rfl

end Tree

theorem Node.iterate_rename (names : Renaming) (count : Nat) (node : Node) :
    (Node.rename names)^[count] node = node.mapNames names.apply^[count] := by
  induction count with
  | zero => simp [mapNames]
  | succ count ih =>
      rw [Function.iterate_succ_apply', Function.iterate_succ', ih]
      exact node.mapNames_mapNames _ names.apply

namespace Tree

variable {tree other : Tree} {reference place : Int} {names : Renaming}

/-- Renaming replaces each name once for each path to its node. -/
theorem node?_rename (tree : Tree) (position : Nat) (names : Renaming) (place : Int) :
    (tree.rename position names).node? place =
      (tree.node? place).map (Node.mapNames names.apply^[tree.paths position place]) := by
  rw [rename, node?_renameWithin, paths]
  exact congrArg (Option.map · _) (funext (Node.iterate_rename names _))

/-- The parameters of the nodes that a reference reaches are renamed, all at once, and nothing else is changed. -/
structure RenamedOnce (tree : Tree) (reference : Int) (names : Renaming) (renamed : Tree) : Prop where
  size_eq : renamed.size = tree.size
  reached : ∀ {place : Int} {node : Node}, tree.Reaches reference place → tree.node? place = some node →
    renamed.node? place = some (node.mapNames names.apply)
  elsewhere : ∀ {place : Int}, ¬ tree.Reaches reference place → renamed.node? place = tree.node? place

theorem mapNames_eq_iff {first second : String → String} {node : Node} :
    node.mapNames first = node.mapNames second ↔
      ∀ parameter ∈ node.parameters, first parameter.name = second parameter.name := by
  constructor
  · intro hSame parameter hMem
    have hParameters := List.map_inj_left.mp (congrArg Node.parameters hSame) parameter hMem
    exact congrArg Parameter.name hParameters
  · intro hNames
    have hParameters : (node.mapNames first).parameters = (node.mapNames second).parameters :=
      List.map_congr_left fun parameter hMem =>
        congrArg (fun name => { parameter with name := name }) (hNames parameter hMem)
    exact congrArg (fun parameters => { node with parameters := parameters }) hParameters

/-- Where replacing a name once more changes nothing, replacing it any number of times is replacing it once. -/
theorem iterate_apply_of_settled (hSettled : ∀ name, names.apply (names.apply name) = names.apply name) {count : Nat}
    (hPositive : 0 < count) (name : String) : names.apply^[count] name = names.apply name := by
  obtain ⟨count, rfl⟩ := Nat.exists_eq_add_one_of_ne_zero hPositive.ne'
  rw [Function.iterate_succ_apply, Function.iterate_fixed (hSettled name)]

/-- All is renamed at once exactly if it makes no difference how often the names of the parameters are replaced. -/
theorem renamedOnce_iff_iterate (hAcyclic : tree.Acyclic) (position : Nat) (names : Renaming) :
    tree.RenamedOnce position names (tree.rename position names) ↔
      ∀ place node, tree.Reaches position place → tree.node? place = some node → ∀ parameter ∈ node.parameters,
        names.apply^[tree.paths position place] parameter.name = names.apply parameter.name := by
  constructor
  · intro hRenamed place node hReaches hNode
    have hBoth := (tree.node?_rename position names place).symm.trans (hRenamed.reached hReaches hNode)
    rw [hNode] at hBoth
    exact mapNames_eq_iff.mp (Option.some.inj hBoth)
  · intro hNames
    refine ⟨(sameShape_rename names position tree).size_eq.symm, fun {place node} hReaches hNode => ?_,
      fun {place} hElsewhere => ?_⟩
    · rw [node?_rename, hNode, Option.map_some, mapNames_eq_iff.mpr (hNames place node hReaches hNode)]
    · have hNone : tree.paths position place = 0 := by
        by_contra hSome
        exact hElsewhere (hAcyclic.paths_pos_iff.mp (Nat.pos_of_ne_zero hSome)).1
      rw [rename, node?_renameWithin, ← paths, hNone]
      exact Option.map_id_apply

/-- In a tree without cycles, renaming below a reference replaces the names in a node once for each path to it.  There
are paths to the nodes that the reference reaches, and to no others.  So all is renamed at once exactly if it makes no
difference how often the names of parameters are replaced: in particular where no two paths lead to the same node,
and in any tree if no name that is put in is itself replaced by another one. -/
theorem renamedOnce_rename_iff (hAcyclic : tree.Acyclic) (position : Nat) (names : Renaming) :
    (∀ place, (tree.rename position names).node? place =
        (tree.node? place).map (Node.mapNames names.apply^[tree.paths position place])) ∧
      (∀ place, 0 < tree.paths position place ↔
        tree.Reaches position place ∧ ∃ node, tree.node? place = some node) ∧
      (tree.RenamedOnce position names (tree.rename position names) ↔
        ∀ place node, tree.Reaches position place → tree.node? place = some node → ∀ parameter ∈ node.parameters,
          names.apply^[tree.paths position place] parameter.name = names.apply parameter.name) ∧
      ((∀ place, tree.paths position place ≤ 1) → tree.RenamedOnce position names (tree.rename position names)) ∧
      ((∀ name, names.apply (names.apply name) = names.apply name) →
        tree.RenamedOnce position names (tree.rename position names)) := by
  have hOnce := renamedOnce_iff_iterate hAcyclic position names
  refine ⟨tree.node?_rename position names, fun _ => hAcyclic.paths_pos_iff, hOnce, fun hSingle => ?_,
    fun hSettled => ?_⟩
  · refine hOnce.mpr fun place node hReaches hNode parameter _ => ?_
    have hPositive := hAcyclic.paths_pos_iff.mpr ⟨hReaches, node, hNode⟩
    rw [Nat.le_antisymm (hSingle place) hPositive]
    rfl
  · refine hOnce.mpr fun place node hReaches hNode parameter _ => ?_
    exact iterate_apply_of_settled hSettled (hAcyclic.paths_pos_iff.mpr ⟨hReaches, node, hNode⟩) parameter.name

/-- Two names are exchanged below the root, from where two paths lead to the predicate: there they are exchanged back.
Below the negation there is only one path. -/
theorem renamedOnce_rename_iff_shared :
    let tree : Tree := ⟨[{ kind := .disjunction, children := [1, 2, 7] }, { kind := .negation, children := [2] },
      { kind := .predicate, name := "p", parameters := [⟨"a", "object"⟩, ⟨"c", ""⟩] }]⟩
    let names : Renaming := [("a", "b"), ("b", "a")]
    tree.Acyclic ∧ tree.paths 0 2 = 2 ∧ ¬ tree.RenamedOnce (0 : Nat) names (tree.rename 0 names) ∧
      tree.RenamedOnce (1 : Nat) names (tree.rename 1 names) := by
  intro tree names
  have hAcyclic : tree.Acyclic := acyclic_of_children (by decide)
  have hReaches : tree.Reaches (0 : Nat) 2 := .single ⟨_, rfl, by decide⟩
  have hPaths : tree.paths 0 2 = 2 := by decide
  refine ⟨hAcyclic, hPaths, fun hOnce => ?_, ?_⟩
  · have hNames := (renamedOnce_rename_iff hAcyclic 0 names).2.2.1.mp hOnce 2 _ hReaches rfl ⟨"a", "object"⟩ (by decide)
    exact absurd hNames (by decide)
  · refine (renamedOnce_rename_iff hAcyclic 1 names).2.2.2.1 fun place => ?_
    have hSome (hPositive : 0 < tree.paths (1 : Nat) place) : place = 0 ∨ place = 1 ∨ place = 2 := by
      obtain ⟨-, node, hNode⟩ := ((renamedOnce_rename_iff hAcyclic 1 names).2.1 place).mp hPositive
      have hRange := node?_lt hNode
      have hSize : (tree.size : Int) = 3 := rfl
      omega
    by_contra hMany
    rcases hSome (by omega) with rfl | rfl | rfl <;> exact hMany (by decide)

/-- A node that two paths lead to is renamed twice: the name that was put in for `a` is itself replaced. -/
theorem renamedOnce_rename_chain :
    let tree : Tree := ⟨[{ kind := .disjunction, children := [1, 2] }, { kind := .negation, children := [2] },
      { kind := .predicate, name := "p", parameters := [⟨"a", ""⟩] }]⟩
    let names : Renaming := [("a", "b"), ("b", "c")]
    tree.Acyclic ∧ ((tree.rename 0 names).node? 2).map Node.parameterNames = some ["c"] ∧
      ¬ tree.RenamedOnce (0 : Nat) names (tree.rename 0 names) := by
  intro tree names
  have hReaches : tree.Reaches (0 : Nat) 2 := .single ⟨_, rfl, by decide⟩
  refine ⟨acyclic_of_children (by decide), by decide, fun hOnce => ?_⟩
  have hNames := congrArg (Option.map Node.parameterNames) (hOnce.reached hReaches rfl)
  exact absurd hNames (by decide)

/-! ## Trees up to names -/

/-- Two trees have the same nodes, up to the names of their parameters. -/
def SameButNames (tree other : Tree) : Prop :=
  ∀ reference, (tree.node? reference).map (Node.mapNames fun _ => "") =
    (other.node? reference).map (Node.mapNames fun _ => "")

theorem sameButNames_rename (tree : Tree) (position : Nat) (names : Renaming) :
    tree.SameButNames (tree.rename position names) := by
  intro reference
  rw [node?_rename, Option.map_map]
  exact congrArg (Option.map · _) (funext fun node => (node.mapNames_mapNames names.apply^[_] fun _ => "").symm)

namespace SameButNames

theorem refl (tree : Tree) : tree.SameButNames tree :=
  fun _ => rfl

theorem flip (hSame : tree.SameButNames other) : other.SameButNames tree :=
  fun reference => (hSame reference).symm

theorem trans {third : Tree} (hSame : tree.SameButNames other) (hNext : other.SameButNames third) :
    tree.SameButNames third :=
  fun reference => (hSame reference).trans (hNext reference)

theorem node? (hSame : tree.SameButNames other) {node : Node} (hNode : tree.node? reference = some node) :
    ∃ parameters, other.node? reference = some { node with parameters := parameters } := by
  have hNodes := hSame reference
  rw [hNode, Option.map_some, eq_comm, Option.map_eq_some_iff] at hNodes
  obtain ⟨found, hFound, hNames⟩ := hNodes
  have hRest := congrArg (fun node : Node => { node with parameters := found.parameters }) hNames
  exact ⟨found.parameters, hFound.trans (congrArg some hRest)⟩

theorem node?_eq_none (hSame : tree.SameButNames other) (hNone : tree.node? reference = none) :
    other.node? reference = none := by
  have hNodes := hSame reference
  rw [hNone, Option.map_none, eq_comm, Option.map_eq_none_iff] at hNodes
  exact hNodes

end SameButNames
end Tree
end PlanLogic
