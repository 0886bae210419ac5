import PlanLogic.Evaluation.Basic
import PlanLogic.Proofs.Trees.Renaming

/-!
# What evaluating a part of a tree touches

Evaluation goes from a node to its children, in trees that differ from the first one only in the names of
parameters.  So it changes no facts and heads but those that are named in the part that it starts from, and reports
only what is wrong there: the form of a node, or an equality whose operands cannot be compared.

A footprint is a property of runs that these accesses have and that sequencing keeps, whatever the answers are.  Then
evaluation has it, against any fact base and whether it succeeds or not.
-/

namespace PlanLogic

/-- A node that stands for its name. -/
def Node.IsSymbol (node : Node) : Prop :=
  node.kind = .constant ∨ node.kind = .parameter

namespace Tree

/-! ## The part below a reference -/

/-- A predicate with a given name is reached. -/
def NamesFact (tree : Tree) (root : Int) (name : String) : Prop :=
  ∃ place node, tree.Reaches root place ∧ tree.node? place = some node ∧ node.kind = .predicate ∧ node.name = name

/-- An update is reached whose first child is a function with a given name. -/
def NamesTarget (tree : Tree) (root : Int) (name : String) : Prop :=
  ∃ place node target found, tree.Reaches root place ∧ tree.node? place = some node ∧ node.kind = .update ∧
    node.children.head? = some target ∧ tree.node? target = some found ∧ found.kind = .function ∧ found.name = name

/-- What can be wrong with the form of a part of a tree. -/
inductive Malformed (tree : Tree) (reference : Int) : Prop
  | missing (hNode : tree.node? reference = none)
  | dangling {node : Node} {child : Int} (hNode : tree.node? reference = some node) (hChild : child ∈ node.children)
      (hMissing : tree.node? child = none)
  | kind {node : Node} {name : String} (hNode : tree.node? reference = some node) (hKind : node.kind = .other name)
  | childless {node : Node} (hNode : tree.node? reference = some node) (hKind : node.kind = .negation)
      (hChildren : node.children = [])
  | operands {node : Node} (hNode : tree.node? reference = some node)
      (hKind : node.kind = .expression ∨ node.kind = .update) (hChildren : node.children.length ≠ 2)
  | operator {node : Node} (hNode : tree.node? reference = some node) (hKind : node.kind = .expression)
      (hComparison : Comparison.ofSymbol? node.operator = none)
      (hArithmetic : Arithmetic.ofSymbol? node.operator = none)
  | change {node : Node} (hNode : tree.node? reference = some node) (hKind : node.kind = .update)
      (hChange : Update.ofSymbol? node.change = none)
  | target {node found : Node} {target : Int} (hNode : tree.node? reference = some node)
      (hKind : node.kind = .update) (hTarget : node.children.head? = some target)
      (hFound : tree.node? target = some found) (hFunction : found.kind ≠ .function)

/-- An equality whose operands are neither both symbols nor both number literals. -/
def MixedEquality (tree : Tree) (reference : Int) : Prop :=
  ∃ node left right leftNode rightNode, tree.node? reference = some node ∧ node.kind = .expression ∧
    node.operator = "=" ∧ node.children = [left, right] ∧ tree.node? left = some leftNode ∧
      tree.node? right = some rightNode ∧ ¬ (leftNode.IsSymbol ∧ rightNode.IsSymbol) ∧
        ¬ (leftNode.kind = .number ∧ rightNode.kind = .number)

end Tree

theorem Node.isSome_symbol?_iff {node : Node} : node.symbol?.isSome = true ↔ node.IsSymbol := by
  unfold symbol? IsSymbol
  split <;> simp_all

/-- Which operands cannot be compared. -/
theorem operandsEqual?_eq_none {left right : Node} {leftValue rightValue : Float}
    (hNone : operandsEqual? left right leftValue rightValue = none) :
    ¬ (left.IsSymbol ∧ right.IsSymbol) ∧ ¬ (left.kind = .number ∧ right.kind = .number) := by
  rw [operandsEqual?] at hNone
  split at hNone
  · exact absurd hNone (Option.some_ne_none _)
  · next hNames =>
      refine ⟨fun hSymbols => ?_, fun hNumbers => ?_⟩
      · obtain ⟨leftName, hLeft⟩ := Option.isSome_iff_exists.mp (Node.isSome_symbol?_iff.mpr hSymbols.1)
        obtain ⟨rightName, hRight⟩ := Option.isSome_iff_exists.mp (Node.isSome_symbol?_iff.mpr hSymbols.2)
        exact hNames leftName rightName hLeft hRight
      · rw [if_pos hNumbers] at hNone
        exact absurd hNone (Option.some_ne_none _)

/-! ## Footprints -/

/-- A property of runs that evaluating a part of a tree has. -/
structure Footprint (m : Type → Type) [Monad m] [FactBase m] (tree : Tree) (root : Int) where
  Admits : {α : Type} → m α → Prop
  pure : ∀ {α : Type} (answer : α), Admits (pure answer)
  bind : ∀ {α β : Type} {run : m α} {next : α → m β}, Admits run → (∀ answer, Admits (next answer)) →
    Admits (run >>= next)
  holds : ∀ fact : Fact, Admits (FactBase.holds fact)
  value? : ∀ key : String, Admits (FactBase.value? key)
  objects : Admits FactBase.objects
  add : ∀ {fact : Fact}, tree.NamesFact root fact.name → Admits (FactBase.add fact)
  remove : ∀ {fact : Fact}, tree.NamesFact root fact.name → Admits (FactBase.remove fact)
  write : ∀ {assignment : Assignment}, tree.NamesTarget root assignment.head.name → Admits (FactBase.write assignment)
  report : ∀ {diagnostic : Diagnostic}, tree.SameButNames diagnostic.tree → tree.Reaches root diagnostic.reference →
    diagnostic.tree.Malformed diagnostic.reference ∨ diagnostic.tree.MixedEquality diagnostic.reference →
      Admits (FactBase.report diagnostic)

namespace Footprint

open Evaluation

variable {m : Type → Type} [Monad m] [FactBase m] {tree current : Tree} {root reference : Int} {node : Node}
  {commit : Bool} (footprint : Footprint m tree root)

/-! ## One node -/

theorem parts {evaluate : Int → m Outcome} {children : List Int}
    (hParts : ∀ child ∈ children, footprint.Admits (evaluate child)) (join : Outcome → Outcome → Outcome)
    (sofar : Outcome) :
    footprint.Admits (children.foldlM (fun sofar child => do return join sofar (← evaluate child)) sofar) := by
  induction children generalizing sofar with
  | nil => exact footprint.pure sofar
  | cons child children ih =>
      obtain ⟨hPart, hRest⟩ := List.forall_mem_cons.mp hParts
      rw [List.foldlM_cons]
      exact footprint.bind (footprint.bind hPart fun _ => footprint.pure _) (ih hRest)

theorem predicate (negated : Bool) {fact : Fact} (hFact : tree.NamesFact root fact.name) :
    footprint.Admits (Evaluation.predicate commit negated fact) := by
  rw [Evaluation.predicate]
  split
  · split
    · exact footprint.bind (footprint.remove hFact) fun _ => footprint.pure _
    · exact footprint.bind (footprint.add hFact) fun _ => footprint.pure _
  · exact footprint.bind (footprint.holds fact) fun _ => footprint.pure _

theorem function (key : String) : footprint.Admits (Evaluation.function key) := by
  refine footprint.bind (footprint.value? key) fun found => ?_
  cases found with
  | none => exact footprint.pure _
  | some value => exact footprint.pure _

theorem operands {evaluate : Int → m Outcome} {left right : Int} {next : Float → Float → m Outcome}
    (hLeft : footprint.Admits (evaluate left)) (hRight : footprint.Admits (evaluate right))
    (hNext : ∀ leftValue rightValue, footprint.Admits (next leftValue rightValue)) :
    footprint.Admits (Evaluation.operands evaluate left right next) := by
  refine footprint.bind hLeft fun leftOutcome => footprint.bind hRight fun rightOutcome => ?_
  split
  · exact hNext leftOutcome.value rightOutcome.value
  · exact footprint.pure _

section

variable (hMalformed : current.Malformed reference ∨ current.MixedEquality reference →
    footprint.Admits (malformed current reference))
  (hNode : current.node? reference = some node)

include hMalformed hNode

theorem operation (hKind : node.kind = .expression) {left right : Int} (hChildren : node.children = [left, right])
    (negated : Bool) (leftValue rightValue : Float) :
    footprint.Admits
      (Evaluation.operation current reference negated node.operator left right leftValue rightValue) := by
  have hMissing {child : Int} (hChild : child ∈ [left, right]) (hNone : current.node? child = none) :
      footprint.Admits (malformed current reference) :=
    hMalformed (.inl (.dangling hNode (hChildren ▸ hChild) hNone))
  rw [Evaluation.operation]
  split
  · next hEqual =>
      cases hLeft : current.node? left with
      | none => exact hMissing (by simp) hLeft
      | some leftNode =>
          cases hRight : current.node? right with
          | none => exact hMissing (by simp) hRight
          | some rightNode =>
              dsimp only
              cases hOperands : operandsEqual? leftNode rightNode leftValue rightValue with
              | some equal => exact footprint.pure _
              | none =>
                  have hOperator : Comparison.equal.symbol = node.operator := by simpa using List.find?_some hEqual
                  exact hMalformed (.inr ⟨node, left, right, leftNode, rightNode, hNode, hKind, hOperator.symm, hChildren,
                    hLeft, hRight, operandsEqual?_eq_none hOperands⟩)
  · exact footprint.pure _
  · next hComparison =>
      split
      · exact footprint.pure _
      · next hArithmetic => exact hMalformed (.inl (.operator hNode hKind hComparison hArithmetic))

/-- Only the function that an update changes is written. -/
theorem update (hKind : node.kind = .update) {target amount : Int} (hChildren : node.children = [target, amount])
    (hTarget : ∀ found, current.node? target = some found → found.kind = .function →
      tree.NamesTarget root found.name) (old new : Float) :
    footprint.Admits (Evaluation.update commit current reference node.change target old new) := by
  have hFirst : node.children.head? = some target := congrArg List.head? hChildren
  rw [Evaluation.update]
  split
  · next hChange => exact hMalformed (.inl (.change hNode hKind hChange))
  split
  · exact footprint.pure _
  split
  · rw [commitUpdate]
    cases hFound : current.node? target with
    | none => exact hMalformed (.inl (.dangling hNode (List.mem_of_mem_head? hFirst) hFound))
    | some found =>
        dsimp only
        split
        · next hFunction => exact footprint.bind (footprint.write (hTarget found hFound hFunction)) fun _ => footprint.pure _
        · next hFunction => exact hMalformed (.inl (.target hNode hKind hFirst hFound hFunction))
  · exact footprint.pure _

end

theorem firstTrue {α : Type} {attempt : α → m Outcome} {alternatives : List α}
    (hAttempt : ∀ alternative, footprint.Admits (attempt alternative)) :
    footprint.Admits (Evaluation.firstTrue attempt alternatives) := by
  induction alternatives with
  | nil => exact footprint.pure _
  | cons alternative rest ih =>
      rw [Evaluation.firstTrue]
      refine footprint.bind (hAttempt alternative) fun outcome => ?_
      split
      · exact footprint.pure _
      · exact ih

/-! ## All that is reached -/

/-- Evaluating what is reached, in a tree that differs in names only. -/
theorem within (hSame : tree.SameButNames current) (hReaches : tree.Reaches root reference) (depth : Nat)
    (negated : Bool) : footprint.Admits (Evaluation.within commit depth current reference negated) := by
  -- Quantifiers rename the tree for each choice, so the tree is not fixed; that it differs in names only is kept.
  induction depth generalizing current reference negated with
  | zero => exact footprint.pure _
  | succ depth ih =>
      have hMalformed : current.Malformed reference ∨ current.MixedEquality reference →
          footprint.Admits (malformed current reference) :=
        fun hDefect => footprint.bind (footprint.report hSame hReaches hDefect) fun _ => footprint.pure _
      rw [Evaluation.within]
      cases hNode : current.node? reference with
      | none => exact hMalformed (.inl (.missing hNode))
      | some node =>
          obtain ⟨_, hOrigin⟩ := hSame.flip.node? hNode
          have hChild {child : Int} (hMem : child ∈ node.children) : tree.Reaches root child :=
            hReaches.tail ⟨_, hOrigin, hMem⟩
          dsimp only
          cases hKind : node.kind with
          | conjunction => exact footprint.parts (fun child hMem => ih hSame (hChild hMem) negated) _ _
          | disjunction => exact footprint.parts (fun child hMem => ih hSame (hChild hMem) negated) _ _
          | negation =>
              cases hChildren : node.children with
              | nil => exact hMalformed (.inl (.childless hNode hKind hChildren))
              | cons child rest => exact ih hSame (hChild (by simp [hChildren])) _
          | predicate => exact footprint.predicate negated ⟨reference, _, hReaches, hOrigin, hKind, rfl⟩
          | function => exact footprint.function _
          | expression =>
              rcases hChildren : node.children with _ | ⟨left, _ | ⟨right, _ | ⟨third, rest⟩⟩⟩
              · exact hMalformed (.inl (.operands hNode (.inl hKind) (by simp [hChildren])))
              · exact hMalformed (.inl (.operands hNode (.inl hKind) (by simp [hChildren])))
              · refine footprint.operands (ih hSame (hChild (by simp [hChildren])) negated)
                  (ih hSame (hChild (by simp [hChildren])) negated) ?_
                exact footprint.operation hMalformed hNode hKind hChildren negated
              · exact hMalformed (.inl (.operands hNode (.inl hKind) (by simp [hChildren])))
          | update =>
              rcases hChildren : node.children with _ | ⟨target, _ | ⟨amount, _ | ⟨third, rest⟩⟩⟩
              · exact hMalformed (.inl (.operands hNode (.inr hKind) (by simp [hChildren])))
              · exact hMalformed (.inl (.operands hNode (.inr hKind) (by simp [hChildren])))
              · refine footprint.operands (ih hSame (hChild (by simp [hChildren])) negated)
                  (ih hSame (hChild (by simp [hChildren])) negated) ?_
                refine footprint.update hMalformed hNode hKind hChildren fun found hFound hFunction => ?_
                obtain ⟨_, hTarget⟩ := hSame.flip.node? hFound
                exact ⟨reference, _, target, _, hReaches, hOrigin, hKind, congrArg List.head? hChildren, hTarget,
                  hFunction, rfl⟩
              · exact hMalformed (.inl (.operands hNode (.inr hKind) (by simp [hChildren])))
          | number => exact footprint.pure _
          | constant => exact footprint.pure _
          | parameter => exact footprint.pure _
          | quantifier =>
              cases hChildren : node.children with
              | nil => exact footprint.pure _
              | cons body rest =>
                  refine footprint.bind footprint.objects fun objects => footprint.firstTrue fun chosen => ?_
                  exact ih (hSame.trans (Tree.sameButNames_rename current _ _)) (hChild (by simp [hChildren])) negated
          | other name => exact hMalformed (.inl (.kind hNode hKind))

/-- Evaluating a part of a tree. -/
theorem evaluate (negated : Bool) : footprint.Admits (PlanLogic.evaluate commit tree root negated) := by
  rw [PlanLogic.evaluate]
  split
  · exact footprint.pure _
  · exact footprint.within (.refl tree) .refl _ negated

end Footprint
end PlanLogic
