import PlanLogic.Tree.Basic

/-!
# Grounding

Renaming parameters below a node, and listing the ways to choose one element from each of several lists.

Renaming works on the shared list of nodes: the children of a node are renamed before the node itself, and a
node that is reached along several paths is renamed once for each of them.
-/

namespace PlanLogic

/-- Names and what replaces them; the last entry for a name counts. -/
abbrev Renaming := List (String × String)

/-- What a renaming makes of a name. -/
def Renaming.apply (names : Renaming) (name : String) : String :=
  match names.reverse.find? fun entry => entry.1 == name with
  | some entry => entry.2
  | none => name

/-- The parameter under a new name. -/
def Parameter.rename (names : Renaming) (parameter : Parameter) : Parameter :=
  { parameter with name := names.apply parameter.name }

/-- The node with its parameters renamed. -/
def Node.rename (names : Renaming) (node : Node) : Node :=
  { node with parameters := node.parameters.map (Parameter.rename names) }

namespace Tree

/-- Renames the parameters of the node at a reference and below it, to a given depth; a reference out of
range changes nothing. -/
def renameWithin (names : Renaming) : Nat → Int → Tree → Tree
  | 0, _, tree => tree
  | depth + 1, reference, tree =>
    match tree.node? reference with
    | none => tree
    | some node =>
      -- The node is changed last, in the list that its children have left.
      (node.children.foldl (fun current child => renameWithin names depth child current) tree).modify
        reference.toNat (Node.rename names)

/-- The tree with the parameters of a node and of all nodes below it renamed. -/
def rename (tree : Tree) (position : Nat) (names : Renaming) : Tree :=
  renameWithin names tree.size position tree

end Tree

/-- All ways to choose one element from each list, the choice from the last list varying fastest. -/
def choices : List (List α) → List (List α)
  | [] => [[]]
  | options :: rest =>
    let tails := choices rest
    options.flatMap fun option => tails.map fun tail => option :: tail

@[simp] theorem choices_nil : choices ([] : List (List α)) = [[]] :=
  rfl

/-- A choice takes one element from each list. -/
theorem mem_choices_cons {head : α} {tail : List α} {options : List α} {rest : List (List α)} :
    head :: tail ∈ choices (options :: rest) ↔ head ∈ options ∧ tail ∈ choices rest := by
  simp only [choices, List.mem_flatMap, List.mem_map, List.cons.injEq]
  constructor
  · rintro ⟨option, hOption, chosen, hChosen, rfl, rfl⟩
    exact ⟨hOption, hChosen⟩
  · rintro ⟨hHead, hTail⟩
    exact ⟨head, hHead, tail, hTail, rfl, rfl⟩

/-- A choice that takes each of its elements from the same list. -/
theorem of_mem_choices {slots : List α} {objects chosen : List β}
    (hChosen : chosen ∈ choices (slots.map fun _ => objects)) :
    slots.length = chosen.length ∧ ∀ object ∈ chosen, object ∈ objects := by
  induction slots generalizing chosen with
  | nil =>
      rw [List.map_nil, choices_nil, List.mem_singleton] at hChosen
      rw [hChosen]
      exact ⟨rfl, fun object hMem => absurd hMem List.not_mem_nil⟩
  | cons slot slots ih =>
      cases chosen with
      | nil => simp [choices] at hChosen
      | cons first chosen =>
          obtain ⟨hFirst, hRest⟩ := mem_choices_cons.mp hChosen
          obtain ⟨hLength, hObjects⟩ := ih hRest
          refine ⟨congrArg Nat.succ hLength, ?_⟩
          intro object hMem
          rcases List.mem_cons.mp hMem with hHere | hLater
          · rw [hHere]
            exact hFirst
          · exact hObjects object hLater

end PlanLogic
