import PlanLogic.Problem.Server
import PlanLogic.Proofs.Compilation.Layout
import PlanLogic.Proofs.Evaluation.Footprint

/-!
# What is reported about conditions

In the tree of a condition every node has the children that its kind asks for, and operators and changes are known.
This does not depend on names, so it is still so when the variables of quantifiers are replaced.  Therefore the only
thing that is ever reported about a condition is an equality of operands that cannot be compared.
-/

namespace PlanLogic

/-! ## Well-formed outlines -/

/-- Whether a node of this kind may have any children. -/
def NodeKind.isFree : NodeKind → Bool
  | .negation | .expression | .update | .other _ => false
  | _ => true

namespace Outline

/-- The first node. -/
def root : Outline → Node
  | .mk node _ => node

/-- A node has children as its kind asks for, and its operator is known. -/
structure Fits (node : Node) (children : List Outline) : Prop where
  known : ∀ name, node.kind ≠ .other name
  negation : node.kind = .negation → children ≠ []
  pair : node.kind = .expression ∨ node.kind = .update → children.length = 2
  operator : node.kind = .expression →
    (Comparison.ofSymbol? node.operator).isSome = true ∨ (Arithmetic.ofSymbol? node.operator).isSome = true
  change : node.kind = .update → (Update.ofSymbol? node.change).isSome = true
  target : node.kind = .update → ∀ target ∈ children.head?, target.root.kind = .function

theorem Fits.of_isFree {node : Node} (hFree : node.kind.isFree = true) (children : List Outline) :
    Fits node children := by
  have hNot {kind : NodeKind} (hBound : kind.isFree = false) : node.kind ≠ kind := by
    rintro rfl
    exact Bool.false_ne_true (hBound.symm.trans hFree)
  exact {
    known := fun _ => hNot rfl
    negation := fun hKind => absurd hKind (hNot rfl)
    pair := fun hKind => hKind.elim (absurd · (hNot rfl)) (absurd · (hNot rfl))
    operator := fun hKind => absurd hKind (hNot rfl)
    change := fun hKind => absurd hKind (hNot rfl)
    target := fun hKind => absurd hKind (hNot rfl) }

/-- Every node has children as its kind asks for. -/
inductive Formed : Outline → Prop
  | mk {node : Node} {children : List Outline} (hFits : Fits node children)
      (hChildren : ∀ child ∈ children, Formed child) : Formed (.mk node children)

end Outline

open Outline

variable (names : Term → String)

theorem Expression.formed_outline : ∀ expression : Expression, (expression.outline names).Formed
  | .number _ => .mk (.of_isFree rfl _) nofun
  | .variable _ => .mk (.of_isFree rfl _) nofun
  | .constant _ => .mk (.of_isFree rfl _) nofun
  | .function _ => .mk (.of_isFree rfl _) nofun
  | .arithmetic op left right => by
      refine .mk ⟨nofun, nofun, fun _ => rfl, fun _ => .inr ?_, nofun, nofun⟩ ?_
      · exact congrArg Option.isSome op.ofSymbol?_symbol
      · exact List.forall_mem_cons.mpr
          ⟨left.formed_outline, List.forall_mem_singleton.mpr right.formed_outline⟩

namespace Condition

mutual

/-- The outline of a condition is well formed, whatever the names are. -/
theorem formed_outline : ∀ condition : Condition, (condition.outline names).Formed
  | .conjunction parts => .mk (.of_isFree rfl _) (formed_partOutlines parts)
  | .disjunction parts => .mk (.of_isFree rfl _) (formed_partOutlines parts)
  | .negation part =>
      .mk ⟨nofun, fun _ => List.cons_ne_nil _ _, nofun, nofun, nofun, nofun⟩
        (List.forall_mem_singleton.mpr (formed_outline part))
  | .atom _ => .mk (.of_isFree rfl _) nofun
  | .comparison op left right => by
      refine .mk ⟨nofun, nofun, fun _ => rfl, fun _ => .inl ?_, nofun, nofun⟩ ?_
      · exact congrArg Option.isSome op.ofSymbol?_symbol
      · exact List.forall_mem_cons.mpr
          ⟨left.formed_outline names, List.forall_mem_singleton.mpr (right.formed_outline names)⟩
  | .update op target amount => by
      refine .mk ⟨nofun, nofun, fun _ => rfl, nofun, fun _ => ?_, fun _ found hFound => ?_⟩ ?_
      · exact congrArg Option.isSome op.ofSymbol?_symbol
      · obtain rfl := Option.some.inj hFound
        rfl
      · exact List.forall_mem_cons.mpr
          ⟨Expression.formed_outline names _, List.forall_mem_singleton.mpr (amount.formed_outline names)⟩
  | .quantified _ _ none => .mk (.of_isFree rfl _) nofun
  | .quantified _ _ (some body) =>
      .mk (.of_isFree rfl _) (List.forall_mem_singleton.mpr (formed_outline body))

theorem formed_partOutlines : ∀ parts : List Condition, ∀ outline ∈ partOutlines names parts, outline.Formed
  | [] => nofun
  | part :: parts => List.forall_mem_cons.mpr ⟨formed_outline part, formed_partOutlines parts⟩

end

end Condition

/-! ## Well-formed parts of trees -/

namespace Tree

variable {tree other : Tree} {reference root : Int}

theorem length_positions (start : Nat) (outlines : List Outline) : (positions start outlines).length = outlines.length := by
  induction outlines generalizing start with
  | nil => rfl
  | cons outline outlines ih => rw [positions, List.length_cons, ih, List.length_cons]

/-- The children of a node in a block have blocks of their own. -/
theorem exists_block_of_mem_positions {outlines : List Outline} {start : Nat}
    (hBlocks : tree.HasBlock start (layouts start outlines)) {child : Int} (hMem : child ∈ positions start outlines) :
    ∃ outline ∈ outlines, ∃ place : Nat, child = place ∧ tree.HasBlock place (outline.layout place) := by
  induction outlines generalizing start with
  | nil => exact absurd hMem List.not_mem_nil
  | cons outline outlines ih =>
      rw [layouts, hasBlock_append, length_layout] at hBlocks
      rcases List.mem_cons.mp hMem with rfl | hLater
      · exact ⟨outline, List.mem_cons_self, start, rfl, hBlocks.1⟩
      · obtain ⟨found, hFound, hRest⟩ := ih hBlocks.2 hLater
        exact ⟨found, List.mem_cons_of_mem outline hFound, hRest⟩

/-- A reference to the block of a well-formed outline. -/
def IsFormed (tree : Tree) (reference : Int) : Prop :=
  ∃ outline : Outline, outline.Formed ∧ ∃ start : Nat, reference = start ∧ tree.HasBlock start (outline.layout start)

/-- What a well-formed block reaches is well formed. -/
theorem IsFormed.of_reaches (hFormed : tree.IsFormed root) (hReaches : tree.Reaches root reference) :
    tree.IsFormed reference := by
  induction hReaches with
  | refl => exact hFormed
  | tail _ hChild ih =>
      obtain ⟨⟨node, children⟩, ⟨-, hChildren⟩, start, rfl, hBlock⟩ := ih
      rw [layout, hasBlock_cons] at hBlock
      obtain ⟨found, hFound, hMem⟩ := hChild
      obtain rfl := Option.some.inj (hBlock.1.symm.trans hFound)
      obtain ⟨outline, hOutline, hRest⟩ := exists_block_of_mem_positions hBlock.2 hMem
      exact ⟨outline, hChildren outline hOutline, hRest⟩

/-- Nothing is wrong with the first node of a well-formed block. -/
theorem IsFormed.not_malformed (hFormed : tree.IsFormed reference) : ¬ tree.Malformed reference := by
  obtain ⟨⟨node, children⟩, ⟨hFits, -⟩, start, rfl, hBlock⟩ := hFormed
  rw [layout, hasBlock_cons] at hBlock
  obtain ⟨hOwn, hBlocks⟩ := hBlock
  intro hMalformed
  cases hMalformed with
  | missing hNode => exact absurd (hOwn.symm.trans hNode) (Option.some_ne_none _)
  | dangling hNode hChild hMissing =>
      obtain rfl := Option.some.inj (hOwn.symm.trans hNode)
      obtain ⟨⟨found, parts⟩, -, place, rfl, hPart⟩ := exists_block_of_mem_positions hBlocks hChild
      rw [layout, hasBlock_cons] at hPart
      exact absurd (hPart.1.symm.trans hMissing) (Option.some_ne_none _)
  | kind hNode hKind =>
      obtain rfl := Option.some.inj (hOwn.symm.trans hNode)
      exact hFits.known _ hKind
  | childless hNode hKind hChildren =>
      obtain rfl := Option.some.inj (hOwn.symm.trans hNode)
      have hLength := length_positions (start + 1) children
      rw [show positions (start + 1) children = [] from hChildren] at hLength
      exact hFits.negation hKind (List.length_eq_zero_iff.mp hLength.symm)
  | operands hNode hKind hChildren =>
      obtain rfl := Option.some.inj (hOwn.symm.trans hNode)
      exact hChildren ((length_positions _ _).trans (hFits.pair hKind))
  | operator hNode hKind hComparison hArithmetic =>
      obtain rfl := Option.some.inj (hOwn.symm.trans hNode)
      rcases hFits.operator hKind with hSome | hSome
      · rw [hComparison] at hSome
        exact Bool.false_ne_true hSome
      · rw [hArithmetic] at hSome
        exact Bool.false_ne_true hSome
  | change hNode hKind hChange =>
      obtain rfl := Option.some.inj (hOwn.symm.trans hNode)
      have hSome := hFits.change hKind
      rw [hChange] at hSome
      exact Bool.false_ne_true hSome
  | target hNode hKind hTarget hFound hFunction =>
      obtain rfl := Option.some.inj (hOwn.symm.trans hNode)
      cases children with
      | nil => exact absurd hTarget (by simp [positions])
      | cons first rest =>
          obtain ⟨firstNode, parts⟩ := first
          obtain rfl := Option.some.inj hTarget
          rw [layouts, hasBlock_append, layout, hasBlock_cons] at hBlocks
          obtain rfl := Option.some.inj (hBlocks.1.1.symm.trans hFound)
          exact hFunction (hFits.target hKind _ rfl)

/-- What is wrong with a part does not depend on names. -/
theorem Malformed.congr (hSame : tree.SameButNames other) (hMalformed : tree.Malformed reference) :
    other.Malformed reference := by
  cases hMalformed with
  | missing hNode => exact .missing (hSame.node?_eq_none hNode)
  | dangling hNode hChild hMissing =>
      obtain ⟨_, hOther⟩ := hSame.node? hNode
      exact .dangling hOther hChild (hSame.node?_eq_none hMissing)
  | kind hNode hKind =>
      obtain ⟨_, hOther⟩ := hSame.node? hNode
      exact .kind hOther hKind
  | childless hNode hKind hChildren =>
      obtain ⟨_, hOther⟩ := hSame.node? hNode
      exact .childless hOther hKind hChildren
  | operands hNode hKind hChildren =>
      obtain ⟨_, hOther⟩ := hSame.node? hNode
      exact .operands hOther hKind hChildren
  | operator hNode hKind hComparison hArithmetic =>
      obtain ⟨_, hOther⟩ := hSame.node? hNode
      exact .operator hOther hKind hComparison hArithmetic
  | change hNode hKind hChange =>
      obtain ⟨_, hOther⟩ := hSame.node? hNode
      exact .change hOther hKind hChange
  | target hNode hKind hTarget hFound hFunction =>
      obtain ⟨_, hOther⟩ := hSame.node? hNode
      obtain ⟨_, hOtherFound⟩ := hSame.node? hFound
      exact .target hOther hKind hTarget hOtherFound hFunction

end Tree

/-! ## Diagnostics -/

namespace Snapshot

/-- What can be reported when a part of a tree is evaluated: something that is wrong with a node that is reached, in a
tree that differs in names only. -/
structure Reportable (tree : Tree) (root : Int) (diagnostic : Diagnostic) : Prop where
  same : tree.SameButNames diagnostic.tree
  reached : tree.Reaches root diagnostic.reference
  defect : diagnostic.tree.Malformed diagnostic.reference ∨ diagnostic.tree.MixedEquality diagnostic.reference

/-- A run reports only what has a property. -/
def Reports (property : Diagnostic → Prop) (run : Run α) : Prop :=
  ∀ observed : Observed Snapshot, (∀ diagnostic ∈ observed.diagnostics, property diagnostic) →
    ∀ diagnostic ∈ (run observed).2.diagnostics, property diagnostic

/-- Runs that report only what can be reported about a part of a tree. -/
def reporting (tree : Tree) (root : Int) : Footprint Run tree root where
  Admits := Reports (Reportable tree root)
  pure _ _ hBefore := hBefore
  bind {_ _ run _} hRun hNext observed hBefore := hNext (run observed).1 (run observed).2 (hRun observed hBefore)
  holds _ _ hBefore := hBefore
  value? _ _ hBefore := hBefore
  objects _ hBefore := hBefore
  add _ _ hBefore := hBefore
  remove _ _ hBefore := hBefore
  write _ _ hBefore := hBefore
  report hSame hReaches hDefect _ hBefore :=
    List.forall_mem_append.mpr ⟨hBefore, List.forall_mem_singleton.mpr ⟨hSame, hReaches, hDefect⟩⟩

/-- All that is reported about a condition, whatever is put in for its variables, is an equality whose operands are
neither both symbols nor both number literals.  Nothing is ever wrong with the form of a part of its tree, also after
the variables of quantifiers were replaced. -/
theorem mixedEquality_of_mem_diagnostics (condition : Option Condition) (objects : List String) (state : Snapshot)
    (commit : Bool) :
    let tree := Tree.ofCondition condition objects
    ∀ diagnostic ∈ (state.evaluated commit tree).2.diagnostics,
      tree.SameButNames diagnostic.tree ∧ diagnostic.tree.MixedEquality diagnostic.reference ∧
        ¬ diagnostic.tree.Malformed diagnostic.reference := by
  intro tree diagnostic hMem
  have hReportable : Reportable tree 0 diagnostic :=
    (reporting tree 0).evaluate false (.start state) (fun _ hNone => absurd hNone List.not_mem_nil) diagnostic hMem
  have hFormed : tree.IsFormed 0 := by
    cases condition with
    | none => exact absurd hMem List.not_mem_nil
    | some condition =>
        exact ⟨_, condition.formed_outline (Term.lowered objects), 0, rfl, Tree.hasBlock_ofCondition condition objects⟩
  have hSound : ¬ diagnostic.tree.Malformed diagnostic.reference := fun hMalformed =>
    (hFormed.of_reaches hReportable.reached).not_malformed (hMalformed.congr hReportable.same.flip)
  exact ⟨hReportable.same, hReportable.defect.resolve_left hSound, hSound⟩

/-- A predicate and an equality of an object with a number under a quantifier: the equality is reported once for every
object. -/
theorem mixedEquality_of_mem_diagnostics_quantified :
    let condition : Condition := .quantified [⟨"?x", "object"⟩] [0]
      (some (.conjunction [.atom ⟨"p", [.slot 0]⟩, .comparison .equal (.variable 0) (.number 1)]))
    let tree := Tree.ofCondition (some condition) []
    let after := ((⟨[⟨"p", ["a"]⟩, ⟨"p", ["b"]⟩], []⟩ : Snapshot).evaluated false tree).2
    after.diagnostics.length = 2 ∧
      ∀ diagnostic ∈ after.diagnostics,
        tree.SameButNames diagnostic.tree ∧ diagnostic.tree.MixedEquality diagnostic.reference ∧
          ¬ diagnostic.tree.Malformed diagnostic.reference :=
  ⟨by decide +kernel, mixedEquality_of_mem_diagnostics _ _ _ _⟩

end Snapshot
end PlanLogic
