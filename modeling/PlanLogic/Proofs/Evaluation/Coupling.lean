import PlanLogic.Evaluation.Basic
import Mathlib.Data.List.Forall2

/-!
# Coupled evaluations

Evaluation knows a fact base only by its questions and changes.  So if two fact bases answer these alike from
states that correspond, and leave states that correspond, then evaluating a tree against both gives the same
outcome.  With one fact base on both sides the correspondence is an invariant that evaluation keeps.

Not every fact has to be answered alike: a vocabulary says which facts, heads and objects a tree may name.
A head is written only after its number was looked up and found, so a write has to be answered alike only for
heads that are known to have a number.

The two sides need not evaluate the same tree.  A relation of places (a depth, a tree and a reference) links them;
it has to hold where evaluation starts, and from linked places evaluation has to go on to linked places.  A tree
that names only what a vocabulary has is linked with itself.
-/

namespace PlanLogic

/-! ## What a tree may name -/

/-- The facts that predicates may name, the heads that functions may name, the objects that may be chosen for
variables, and whether quantifiers are allowed. -/
structure Vocabulary where
  fact : Fact → Prop
  head : Fact → Prop
  object : String → Prop
  quantifies : Prop

/-- A fact with its objects renamed. -/
def Fact.rename (names : Renaming) (fact : Fact) : Fact :=
  ⟨fact.name, fact.args.map names.apply⟩

/-- What holds of a name, and of all names that are put in, holds of the name that was renamed. -/
theorem Renaming.apply_induction {property : String → Prop} {names : Renaming}
    (hNames : ∀ entry ∈ names, property entry.2) {name : String} (hName : property name) :
    property (names.apply name) := by
  rw [apply]
  split
  · next entry hFound => exact hNames entry (List.mem_reverse.mp (List.mem_of_find?_eq_some hFound))
  · exact hName

theorem Fact.forall_args_rename {property : String → Prop} {names : Renaming}
    (hNames : ∀ entry ∈ names, property entry.2) {fact : Fact} (hArgs : ∀ arg ∈ fact.args, property arg) :
    ∀ arg ∈ (fact.rename names).args, property arg := by
  intro arg hArg
  obtain ⟨old, hOld, rfl⟩ := List.mem_map.mp hArg
  exact Renaming.apply_induction hNames (hArgs old hOld)

theorem Node.fact_rename (names : Renaming) (node : Node) : (node.rename names).fact = node.fact.rename names := by
  simp only [Node.fact, Node.parameterNames, Node.rename, Fact.rename, List.map_map]
  rfl

namespace Vocabulary

variable {vocabulary : Vocabulary} {tree : Tree}

/-- Renaming to objects of the vocabulary does not lead out of it. -/
structure Closed (vocabulary : Vocabulary) : Prop where
  fact : ∀ {names : Renaming} {fact : Fact}, (∀ entry ∈ names, vocabulary.object entry.2) →
    vocabulary.fact fact → vocabulary.fact (fact.rename names)
  head : ∀ {names : Renaming} {head : Fact}, (∀ entry ∈ names, vocabulary.object entry.2) →
    vocabulary.head head → vocabulary.head (head.rename names)

/-- A node names only what the vocabulary has. -/
structure CoversNode (vocabulary : Vocabulary) (node : Node) : Prop where
  fact : node.kind = .predicate → vocabulary.fact node.fact
  head : node.kind = .function → vocabulary.head node.fact
  quantifies : node.kind = .quantifier → vocabulary.quantifies

/-- A tree names only what the vocabulary has. -/
def Covers (vocabulary : Vocabulary) (tree : Tree) : Prop :=
  ∀ node ∈ tree.nodes, vocabulary.CoversNode node

theorem CoversNode.rename (hClosed : vocabulary.Closed) {names : Renaming}
    (hNames : ∀ entry ∈ names, vocabulary.object entry.2) {node : Node} (hNode : vocabulary.CoversNode node) :
    vocabulary.CoversNode (node.rename names) where
  fact hKind := by
    rw [Node.fact_rename]
    exact hClosed.fact hNames (hNode.fact hKind)
  head hKind := by
    rw [Node.fact_rename]
    exact hClosed.head hNames (hNode.head hKind)
  quantifies := hNode.quantifies

theorem Covers.node? (hTree : vocabulary.Covers tree) {reference : Int} {node : Node}
    (hNode : tree.node? reference = some node) : vocabulary.CoversNode node := by
  unfold Tree.node? at hNode
  split at hNode
  · exact hTree node (List.mem_of_getElem? hNode)
  · exact absurd hNode (Option.some_ne_none node).symm

theorem Covers.renameWithin (hClosed : vocabulary.Closed) {names : Renaming}
    (hNames : ∀ entry ∈ names, vocabulary.object entry.2) (depth : Nat) (reference : Int)
    (hTree : vocabulary.Covers tree) : vocabulary.Covers (Tree.renameWithin names depth reference tree) := by
  induction depth generalizing reference tree with
  | zero => exact hTree
  | succ depth ih =>
      rw [Tree.renameWithin]
      split
      · exact hTree
      next node _ =>
      have hChildren : ∀ (children : List Int) {tree : Tree}, vocabulary.Covers tree →
          vocabulary.Covers
            (children.foldl (fun current child => Tree.renameWithin names depth child current) tree) := by
        intro children
        induction children with
        | nil => exact fun hTree => hTree
        | cons child children ihChildren => exact fun hTree => ihChildren (ih child hTree)
      intro changed hMem
      rw [Tree.modify, List.mem_iff_getElem?] at hMem
      obtain ⟨index, hIndex⟩ := hMem
      rw [List.getElem?_modify, Option.map_eq_map, Option.map_eq_some_iff] at hIndex
      obtain ⟨old, hOld, hSame⟩ := hIndex
      have hCovers := hChildren node.children hTree old (List.mem_of_getElem? hOld)
      rw [← hSame]
      split
      · exact hCovers.rename hClosed hNames
      · exact hCovers

theorem Covers.rename (hClosed : vocabulary.Closed) {names : Renaming}
    (hNames : ∀ entry ∈ names, vocabulary.object entry.2) (position : Nat) (hTree : vocabulary.Covers tree) :
    vocabulary.Covers (tree.rename position names) :=
  hTree.renameWithin hClosed hNames tree.size position

end Vocabulary

/-! ## Couplings -/

/-- A correspondence between two fact bases.  From states that correspond, coupled runs give the same answer,
which has a given property, and leave states that correspond.  Changes are made only when effects are made
true. -/
structure Coupling (commit : Bool) (m n : Type → Type) [Monad m] [Monad n] [FactBase m] [FactBase n] where
  vocabulary : Vocabulary
  closed : vocabulary.Closed
  /-- The heads that have a number on both sides, throughout. -/
  known : Fact → Prop
  Coupled : {α : Type} → (α → Prop) → m α → n α → Prop
  pure : ∀ {α : Type} {post : α → Prop} {answer : α}, post answer → Coupled post (pure answer) (pure answer)
  bind : ∀ {α β : Type} {middle : α → Prop} {post : β → Prop} {run : m α} {other : n α} {next : α → m β}
    {otherNext : α → n β}, Coupled middle run other →
      (∀ answer, middle answer → Coupled post (next answer) (otherNext answer)) →
        Coupled post (run >>= next) (other >>= otherNext)
  weaken : ∀ {α : Type} {pre post : α → Prop} {run : m α} {other : n α}, Coupled pre run other →
    (∀ answer, pre answer → post answer) → Coupled post run other
  holds : ∀ {fact : Fact}, vocabulary.fact fact →
    Coupled (fun _ => True) (FactBase.holds fact) (FactBase.holds fact)
  add : ∀ {fact : Fact}, commit = true → vocabulary.fact fact →
    Coupled (fun _ => True) (FactBase.add fact) (FactBase.add fact)
  remove : ∀ {fact : Fact}, commit = true → vocabulary.fact fact →
    Coupled (fun _ => True) (FactBase.remove fact) (FactBase.remove fact)
  value? : ∀ {head : Fact}, vocabulary.head head →
    Coupled (fun found => found.isSome = true → known head) (FactBase.value? head.key) (FactBase.value? head.key)
  write : ∀ {assignment : Assignment}, commit = true → vocabulary.head assignment.head → known assignment.head →
    Coupled (fun _ => True) (FactBase.write assignment) (FactBase.write assignment)
  objects : vocabulary.quantifies →
    Coupled (fun names => ∀ name ∈ names, vocabulary.object name) FactBase.objects FactBase.objects
  report : ∀ {diagnostic : Diagnostic},
    Coupled (fun _ => True) (FactBase.report diagnostic) (FactBase.report diagnostic)

/-! ## Places -/

/-- A part of a tree, with the depth to which it is evaluated. -/
structure Place where
  depth : Nat
  tree : Tree
  reference : Int

namespace Place

/-- Two places have the same node, up to where its children are. -/
def SameNode (here there : Place) : Prop :=
  ∃ node children, here.tree.node? here.reference = some node ∧
    there.tree.node? there.reference = some { node with children := children }

/-- The diagnostic that is reported at a place. -/
def diagnostic (place : Place) : Diagnostic :=
  ⟨place.tree, place.reference⟩

/-- A child of the node at a place. -/
def child (place : Place) (reference : Int) : Place :=
  ⟨place.depth - 1, place.tree, reference⟩

/-- The place with the parameters below it renamed. -/
def rename (place : Place) (names : Renaming) : Place :=
  { place with tree := place.tree.rename place.reference.toNat names }

end Place

namespace Coupling

open Evaluation

variable {commit : Bool} {m n : Type → Type} [Monad m] [Monad n] [FactBase m] [FactBase n]
  (coupling : Coupling commit m n)

/-- Runs that are coupled, whatever the answer is. -/
abbrev Alike {α : Type} (run : m α) (other : n α) : Prop :=
  coupling.Coupled (fun _ => True) run other

/-- Reports about two places have the same effect. -/
abbrev ReportsAlike (here there : Place) : Prop :=
  coupling.Alike (FactBase.report here.diagnostic) (FactBase.report there.diagnostic)

/-- What evaluation finds at two places at which it proceeds alike: it goes on to linked places.  The variables of
a quantifier are replaced before it goes on. -/
inductive Unfolds (Linked : Place → Place → Prop) (here there : Place) : Prop
  | exhausted (hHere : here.depth = 0) (hThere : there.depth = 0)
  | missing (hHere : here.depth ≠ 0) (hThere : there.depth ≠ 0) (hReport : coupling.ReportsAlike here there)
      (hNode : here.tree.node? here.reference = none) (hOther : there.tree.node? there.reference = none)
  | node {node : Node} {children : List Int} (hHere : here.depth ≠ 0) (hThere : there.depth ≠ 0)
      (hReport : coupling.ReportsAlike here there) (hNode : here.tree.node? here.reference = some node)
      (hOther : there.tree.node? there.reference = some { node with children := children })
      (hCovers : coupling.vocabulary.CoversNode node)
      (hChildren : node.kind ≠ .quantifier →
        List.Forall₂ (fun child other => Linked (here.child child) (there.child other)) node.children children)
      (hBody : node.kind = .quantifier →
        List.Forall₂ (fun child other => ∀ chosen : List String, node.parameters.length = chosen.length →
          (∀ object ∈ chosen, coupling.vocabulary.object object) →
            let names := node.parameterNames.zip chosen
            Linked ((here.rename names).child child) ((there.rename names).child other)) node.children children)

/-- What a run that succeeds shows about two places: they have the same node, and the head of a function is known
to have a number. -/
def Establishes (here there : Place) (outcome : Outcome) : Prop :=
  outcome.success = true → here.SameNode there ∧
    ∀ node, here.tree.node? here.reference = some node → node.kind = .function →
      coupling.vocabulary.head node.fact ∧ coupling.known node.fact

variable {coupling}

theorem answer {α : Type} {answer : α} : coupling.Alike (Pure.pure answer) (Pure.pure answer) :=
  coupling.pure trivial

/-- Reporting a part and failing. -/
theorem malformed {here there : Place} (hReport : coupling.ReportsAlike here there) :
    coupling.Coupled (· = .failed) (Evaluation.malformed here.tree here.reference)
      (Evaluation.malformed there.tree there.reference) :=
  coupling.bind hReport fun _ _ => coupling.pure rfl

theorem malformed_alike {here there : Place} (hReport : coupling.ReportsAlike here there) :
    coupling.Alike (Evaluation.malformed here.tree here.reference)
      (Evaluation.malformed there.tree there.reference) :=
  coupling.weaken (malformed hReport) fun _ _ => trivial

/-- A failure establishes nothing. -/
theorem establishes_of_failed {here there : Place} {run : m Outcome} {other : n Outcome}
    (hFailed : coupling.Coupled (· = .failed) run other) :
    coupling.Coupled (coupling.Establishes here there) run other := by
  refine coupling.weaken hFailed fun outcome hOutcome hSuccess => ?_
  rw [hOutcome] at hSuccess
  exact absurd hSuccess Bool.false_ne_true

/-- Only the node of a function establishes anything about a head. -/
theorem establishes_of_alike {here there : Place} {node : Node} {children : List Int}
    (hNode : here.tree.node? here.reference = some node)
    (hOther : there.tree.node? there.reference = some { node with children := children })
    (hKind : node.kind ≠ .function) {run : m Outcome} {other : n Outcome} (hAlike : coupling.Alike run other) :
    coupling.Coupled (coupling.Establishes here there) run other := by
  refine coupling.weaken hAlike fun _ _ _ => ⟨⟨node, children, hNode, hOther⟩, fun found hFound hFunction => ?_⟩
  obtain rfl := Option.some.inj (hNode.symm.trans hFound)
  exact absurd hFunction hKind

/-- Evaluating parts in order. -/
theorem parts {evaluate : Int → m Outcome} {other : Int → n Outcome} {children others : List Int}
    (hParts : List.Forall₂ (fun child place => coupling.Alike (evaluate child) (other place)) children others)
    (join : Outcome → Outcome → Outcome) (sofar : Outcome) :
    coupling.Alike (children.foldlM (fun sofar child => do return join sofar (← evaluate child)) sofar)
      (others.foldlM (fun sofar child => do return join sofar (← other child)) sofar) := by
  induction hParts generalizing sofar with
  | nil => exact answer
  | @cons child place _ _ hPart _ ih =>
      rw [List.foldlM_cons, List.foldlM_cons]
      have hHere : coupling.Alike (do return join sofar (← evaluate child))
          (do return join sofar (← other place)) :=
        coupling.bind hPart fun _ _ => answer
      exact coupling.bind hHere fun next _ => ih next

theorem predicate (negated : Bool) {fact : Fact} (hFact : coupling.vocabulary.fact fact) :
    coupling.Alike (Evaluation.predicate commit negated fact) (Evaluation.predicate commit negated fact) := by
  rw [Evaluation.predicate, Evaluation.predicate]
  split
  · next hCommit =>
      split
      · exact coupling.bind (coupling.remove hCommit hFact) fun _ _ => answer
      · exact coupling.bind (coupling.add hCommit hFact) fun _ _ => answer
  · exact coupling.bind (coupling.holds hFact) fun _ _ => answer

theorem function {head : Fact} (hHead : coupling.vocabulary.head head) :
    coupling.Coupled (fun outcome => outcome.success = true → coupling.known head)
      (Evaluation.function head.key) (Evaluation.function head.key) := by
  refine coupling.bind (coupling.value? hHead) fun found hFound => ?_
  cases found with
  | none => exact coupling.pure fun hSuccess => absurd hSuccess Bool.false_ne_true
  | some number => exact coupling.pure fun _ => hFound rfl

/-- Evaluating two operands; what is done with their values may rely on what was established. -/
theorem operands {evaluate : Int → m Outcome} {other : Int → n Outcome} {left right otherLeft otherRight : Int}
    {leftPost rightPost : Outcome → Prop} {next : Float → Float → m Outcome}
    {otherNext : Float → Float → n Outcome}
    (hLeft : coupling.Coupled leftPost (evaluate left) (other otherLeft))
    (hRight : coupling.Coupled rightPost (evaluate right) (other otherRight))
    (hNext : ∀ leftOutcome rightOutcome, leftPost leftOutcome → rightPost rightOutcome →
      leftOutcome.success = true → rightOutcome.success = true →
        coupling.Alike (next leftOutcome.value rightOutcome.value)
          (otherNext leftOutcome.value rightOutcome.value)) :
    coupling.Alike (Evaluation.operands evaluate left right next)
      (Evaluation.operands other otherLeft otherRight otherNext) := by
  refine coupling.bind hLeft fun leftOutcome hLeftPost => coupling.bind hRight fun rightOutcome hRightPost => ?_
  split
  · next hSuccess =>
      rw [Bool.and_eq_true] at hSuccess
      exact hNext leftOutcome rightOutcome hLeftPost hRightPost hSuccess.1 hSuccess.2
  · exact answer

theorem operation {here there : Place} (hReport : coupling.ReportsAlike here there) (negated : Bool)
    (symbol : String) {left right otherLeft otherRight : Int}
    (hLeft : (here.child left).SameNode (there.child otherLeft))
    (hRight : (here.child right).SameNode (there.child otherRight)) (leftValue rightValue : Float) :
    coupling.Alike
      (Evaluation.operation here.tree here.reference negated symbol left right leftValue rightValue)
      (Evaluation.operation there.tree there.reference negated symbol otherLeft otherRight leftValue
        rightValue) := by
  obtain ⟨leftNode, leftChildren, hLeftNode, hOtherLeft⟩ := hLeft
  obtain ⟨rightNode, rightChildren, hRightNode, hOtherRight⟩ := hRight
  simp only [Place.child] at hLeftNode hOtherLeft hRightNode hOtherRight
  rw [Evaluation.operation, Evaluation.operation]
  split
  · rw [hLeftNode, hRightNode, hOtherLeft, hOtherRight]
    dsimp only
    -- Whether two nodes are equal operands does not depend on their children.
    have hChildren : operandsEqual? { leftNode with children := leftChildren }
        { rightNode with children := rightChildren } leftValue rightValue =
          operandsEqual? leftNode rightNode leftValue rightValue := rfl
    rw [hChildren]
    cases operandsEqual? leftNode rightNode leftValue rightValue with
    | some equal => exact answer
    | none => exact malformed_alike hReport
  · exact answer
  · split
    · exact answer
    · exact malformed_alike hReport

theorem commitUpdate {here there : Place} (hReport : coupling.ReportsAlike here there) (hCommit : commit = true)
    {target otherTarget : Int} {outcome : Outcome}
    (hTarget : coupling.Establishes (here.child target) (there.child otherTarget) outcome)
    (hSuccess : outcome.success = true) (value : Float) :
    coupling.Alike (Evaluation.commitUpdate here.tree here.reference target value)
      (Evaluation.commitUpdate there.tree there.reference otherTarget value) := by
  obtain ⟨⟨node, children, hNode, hOther⟩, hHead⟩ := hTarget hSuccess
  have hKnown := hHead node hNode
  rw [Place.child] at hNode hOther
  rw [Evaluation.commitUpdate, Evaluation.commitUpdate, hNode, hOther]
  dsimp only
  split
  · next hKind =>
      exact coupling.bind (coupling.write hCommit (hKnown hKind).1 (hKnown hKind).2) fun _ _ => answer
  · exact malformed_alike hReport

theorem update {here there : Place} (hReport : coupling.ReportsAlike here there) (symbol : String)
    {target otherTarget : Int} {outcome : Outcome}
    (hTarget : coupling.Establishes (here.child target) (there.child otherTarget) outcome)
    (hSuccess : outcome.success = true) (amount : Float) :
    coupling.Alike (Evaluation.update commit here.tree here.reference symbol target outcome.value amount)
      (Evaluation.update commit there.tree there.reference symbol otherTarget outcome.value amount) := by
  rw [Evaluation.update, Evaluation.update]
  split
  · exact malformed_alike hReport
  split
  · exact answer
  split
  · next hCommit => exact commitUpdate hReport hCommit hTarget hSuccess _
  · exact answer

theorem firstTrue {α : Type} {attempt : α → m Outcome} {other : α → n Outcome} {alternatives : List α}
    (hAttempt : ∀ alternative ∈ alternatives, coupling.Alike (attempt alternative) (other alternative)) :
    coupling.Alike (Evaluation.firstTrue attempt alternatives) (Evaluation.firstTrue other alternatives) := by
  induction alternatives with
  | nil => exact answer
  | cons alternative rest ih =>
      rw [Evaluation.firstTrue, Evaluation.firstTrue]
      refine coupling.bind (hAttempt alternative List.mem_cons_self) fun outcome _ => ?_
      split
      · exact answer
      · exact ih fun later hLater => hAttempt later (List.mem_cons_of_mem alternative hLater)

/-- Trying every choice of objects. -/
theorem quantified {evaluate : Tree → Int → m Outcome} {other : Tree → Int → n Outcome} {tree otherTree : Tree}
    {position place : Nat} {node otherNode : Node} (hParameters : otherNode.parameters = node.parameters)
    (hQuantifies : coupling.vocabulary.quantifies) {body otherBody : Int}
    (hBody : ∀ chosen : List String, node.parameters.length = chosen.length →
      (∀ object ∈ chosen, coupling.vocabulary.object object) →
        coupling.Alike (evaluate (tree.rename position (node.parameterNames.zip chosen)) body)
          (other (otherTree.rename place (node.parameterNames.zip chosen)) otherBody)) :
    coupling.Alike (Evaluation.quantified evaluate tree position node body)
      (Evaluation.quantified other otherTree place otherNode otherBody) := by
  have hNames : otherNode.parameterNames = node.parameterNames := by
    rw [Node.parameterNames, Node.parameterNames, hParameters]
  rw [Evaluation.quantified, Evaluation.quantified, hParameters, hNames]
  refine coupling.bind (coupling.objects hQuantifies) fun objects hObjects => firstTrue fun chosen hChosen => ?_
  obtain ⟨hLength, hMem⟩ := of_mem_choices hChosen
  exact hBody chosen hLength fun object hObject => hObjects object (hMem object hObject)

/-- One step of evaluation: what two places unfold to is evaluated alike, if the linked places below are. -/
theorem within_succ {Linked : Place → Place → Prop} {depth bound : Nat} {tree other : Tree} {reference place : Int}
    (hUnfolds : coupling.Unfolds Linked ⟨depth + 1, tree, reference⟩ ⟨bound + 1, other, place⟩)
    (hWithin : ∀ (negated : Bool) {tree other : Tree} {reference place : Int},
      Linked ⟨depth, tree, reference⟩ ⟨bound, other, place⟩ →
        coupling.Coupled (coupling.Establishes ⟨depth, tree, reference⟩ ⟨bound, other, place⟩)
          (Evaluation.within commit depth tree reference negated)
          (Evaluation.within commit bound other place negated)) (negated : Bool) :
    coupling.Coupled (coupling.Establishes ⟨depth + 1, tree, reference⟩ ⟨bound + 1, other, place⟩)
      (Evaluation.within commit (depth + 1) tree reference negated)
      (Evaluation.within commit (bound + 1) other place negated) := by
  have hAlike {tree other : Tree} {child place : Int} (negated : Bool)
      (hChild : Linked ⟨depth, tree, child⟩ ⟨bound, other, place⟩) :
      coupling.Alike (Evaluation.within commit depth tree child negated)
        (Evaluation.within commit bound other place negated) :=
    coupling.weaken (hWithin negated hChild) fun _ _ => trivial
  rw [Evaluation.within, Evaluation.within]
  cases hUnfolds with
  | exhausted hHere => exact absurd hHere (Nat.succ_ne_zero depth)
  | missing _ _ hReport hNode hOther =>
      simp only at hNode hOther
      rw [hNode, hOther]
      exact establishes_of_failed (malformed hReport)
  | @node node children _ _ hReport hNode hOther hCovers hChildren hBody =>
      simp only at hNode hOther
      rw [hNode, hOther]
      dsimp only
      by_cases hFunction : node.kind = .function
      · have hHead := hCovers.head hFunction
        simp only [hFunction]
        refine coupling.weaken (function hHead) fun outcome hKnown hSuccess => ?_
        refine ⟨⟨node, children, hNode, hOther⟩, fun found hFound _ => ?_⟩
        obtain rfl := Option.some.inj (hNode.symm.trans hFound)
        exact ⟨hHead, hKnown hSuccess⟩
      · refine establishes_of_alike hNode hOther hFunction ?_
        cases hKind : node.kind with
        | conjunction =>
            have hLinks := hChildren (by rw [hKind]; decide)
            exact parts (hLinks.imp fun _ _ hChild => hAlike negated hChild) _ _
        | disjunction =>
            have hLinks := hChildren (by rw [hKind]; decide)
            exact parts (hLinks.imp fun _ _ hChild => hAlike negated hChild) _ _
        | negation =>
            have hLinks := hChildren (by rw [hKind]; decide)
            generalize node.children = own at hLinks ⊢
            cases hLinks with
            | nil => exact malformed_alike hReport
            | cons hChild _ => exact hAlike _ hChild
        | predicate => exact predicate negated (hCovers.fact hKind)
        | function => exact absurd hKind hFunction
        | expression =>
            have hLinks := hChildren (by rw [hKind]; decide)
            generalize node.children = own at hLinks ⊢
            rcases hLinks with _ | ⟨hLeft, _ | ⟨hRight, _ | _⟩⟩
            · exact malformed_alike hReport
            · exact malformed_alike hReport
            · refine operands (hWithin negated hLeft) (hWithin negated hRight) ?_
              intro leftOutcome rightOutcome hLeftPost hRightPost hLeftSuccess hRightSuccess
              exact operation hReport negated _ (hLeftPost hLeftSuccess).1 (hRightPost hRightSuccess).1 _ _
            · exact malformed_alike hReport
        | update =>
            have hLinks := hChildren (by rw [hKind]; decide)
            generalize node.children = own at hLinks ⊢
            rcases hLinks with _ | ⟨hTarget, _ | ⟨hAmount, _ | _⟩⟩
            · exact malformed_alike hReport
            · exact malformed_alike hReport
            · refine operands (hWithin negated hTarget) (hWithin negated hAmount) ?_
              intro targetOutcome amountOutcome hTargetPost _ hSuccess _
              exact update hReport _ hTargetPost hSuccess _
            · exact malformed_alike hReport
        | number => exact answer
        | constant => exact answer
        | parameter => exact answer
        | quantifier =>
            have hQuantifies := hCovers.quantifies hKind
            have hLinks := hBody hKind
            generalize node.children = own at hLinks ⊢
            cases hLinks with
            | nil => exact answer
            | cons hChild _ =>
                refine quantified ?_ hQuantifies fun chosen hLength hObjects => ?_
                · rfl
                · exact hAlike negated (hChild chosen hLength hObjects)
        | other name => exact malformed_alike hReport

/-- Evaluating linked places gives the same outcome on both sides and keeps the correspondence. -/
theorem within {Linked : Place → Place → Prop}
    (hLinked : ∀ {here there : Place}, Linked here there → coupling.Unfolds Linked here there) {here there : Place}
    (hPlaces : Linked here there) (negated : Bool) :
    coupling.Coupled (coupling.Establishes here there)
      (Evaluation.within commit here.depth here.tree here.reference negated)
      (Evaluation.within commit there.depth there.tree there.reference negated) := by
  obtain ⟨depth, tree, reference⟩ := here
  obtain ⟨bound, other, place⟩ := there
  have hUnfolds := hLinked hPlaces
  induction depth generalizing bound tree other reference place negated with
  | zero =>
      cases hUnfolds with
      | exhausted _ hThere =>
          rw [hThere]
          exact coupling.pure fun hSuccess => absurd hSuccess Bool.false_ne_true
      | missing hHere => exact absurd rfl hHere
      | node hHere => exact absurd rfl hHere
  | succ depth ih =>
      cases bound with
      | zero =>
          cases hUnfolds with
          | exhausted hHere => exact absurd hHere (Nat.succ_ne_zero depth)
          | missing _ hThere => exact absurd rfl hThere
          | node _ hThere => exact absurd rfl hThere
      | succ bound =>
          refine within_succ hUnfolds (fun negated _ _ _ _ hBelow => ?_) negated
          exact ih negated _ _ _ _ _ hBelow (hLinked hBelow)

/-- Evaluating trees from linked places gives the same outcome on both sides and keeps the correspondence. -/
theorem evaluate_of_linked {Linked : Place → Place → Prop}
    (hLinked : ∀ {here there : Place}, Linked here there → coupling.Unfolds Linked here there) {tree other : Tree}
    {reference place : Int} (hEmpty : tree.isEmpty = other.isEmpty)
    (hPlaces : Linked ⟨tree.size + 1, tree, reference⟩ ⟨other.size + 1, other, place⟩) (negated : Bool) :
    coupling.Alike (PlanLogic.evaluate commit tree reference negated)
      (PlanLogic.evaluate commit other place negated) := by
  rw [PlanLogic.evaluate, PlanLogic.evaluate, hEmpty]
  split
  · exact answer
  · exact coupling.weaken (within hLinked hPlaces negated) fun _ _ => trivial

/-- Any part of a tree over the vocabulary is linked to itself. -/
theorem unfolds_of_covers {here there : Place} (hPlaces : here = there ∧ coupling.vocabulary.Covers here.tree) :
    coupling.Unfolds (fun here there => here = there ∧ coupling.vocabulary.Covers here.tree) here there := by
  obtain ⟨rfl, hTree⟩ := hPlaces
  by_cases hDepth : here.depth = 0
  · exact .exhausted hDepth hDepth
  cases hNode : here.tree.node? here.reference with
  | none => exact .missing hDepth hDepth coupling.report hNode hNode
  | some node =>
      refine .node hDepth hDepth coupling.report hNode hNode (hTree.node? hNode) (fun _ => ?_) fun _ => ?_
      · exact List.forall₂_same.mpr fun child _ => ⟨rfl, hTree⟩
      · refine List.forall₂_same.mpr fun child _ chosen _ hObjects => ⟨rfl, ?_⟩
        exact hTree.rename coupling.closed (fun entry hEntry => hObjects _ (List.of_mem_zip hEntry).2) _

variable (coupling) in
/-- Evaluating a tree over the vocabulary gives the same outcome on both sides and keeps the correspondence. -/
theorem evaluate {tree : Tree} (hTree : coupling.vocabulary.Covers tree) (reference : Int) (negated : Bool) :
    coupling.Alike (PlanLogic.evaluate commit tree reference negated)
      (PlanLogic.evaluate commit tree reference negated) :=
  evaluate_of_linked unfolds_of_covers rfl ⟨rfl, hTree⟩ negated

end Coupling
end PlanLogic
