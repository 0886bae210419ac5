import PlanLogic.Evaluation.OnSnapshot
import PlanLogic.Problem.Server
import PlanLogic.Proofs.Evaluation.Coupling
import PlanLogic.Proofs.Trees.Blocks
import PlanLogic.Proofs.Trees.Reachability

/-!
# Evaluation sees only the part of a tree that it starts from

Evaluation goes from a node to its children, and to the nodes of a tree that was renamed below a quantifier.  So
what it does depends on what a node reaches, and not on where these nodes stand in the list or what else is there.
Also the line that reports a malformed part shows only what is reached from it.
-/

namespace PlanLogic

/-! ## What can be seen of an evaluation -/

/-- The state, and the lines that were reported. -/
def Observed.seen (observed : Observed σ) : σ × String :=
  (observed.state, observed.reports)

/-- What evaluating a part of a tree against a snapshot shows: the outcome, the snapshot afterwards, and the lines
that were reported. -/
def Snapshot.seen (state : Snapshot) (commit : Bool) (tree : Tree) (reference : Int) (negated : Bool) :
    Outcome × Snapshot × String :=
  let (outcome, after) := (evaluate commit tree reference negated : Run Outcome) (.start state)
  (outcome, after.seen)

/-- What evaluating a part of a tree against a problem shows: the outcome, if the server can be reached, the server
afterwards, and the lines that were reported. -/
def Problem.seen (problem : Problem) (server : Server) (commit : Bool) (tree : Tree) (reference : Int)
    (negated : Bool) : Except Unreachable Outcome × Server × String :=
  match (evaluate commit tree reference negated : Run Outcome) problem (.start server) with
  | .ok outcome after => (.ok outcome, after.seen)
  | .error error after => (.error error, after.seen)

/-- Evaluating a part of one tree shows the same as evaluating a part of another one. -/
structure Tree.EvaluatesLike (tree : Tree) (reference : Int) (other : Tree) (place : Int) : Prop where
  onSnapshot : ∀ (commit negated : Bool) (state : Snapshot),
    state.seen commit tree reference negated = state.seen commit other place negated
  onProblem : ∀ (commit negated : Bool) (problem : Problem) (server : Server),
    problem.seen server commit tree reference negated = problem.seen server commit other place negated

namespace Observed

theorem reports_note (observed : Observed σ) (diagnostic : Diagnostic) :
    (observed.note diagnostic).reports = observed.reports ++ diagnostic.text := by
  rw [reports, note, List.map_append, String.join_append]
  simp [reports]

/-- Reports with the same text. -/
theorem seen_note {here there : Observed σ} (hSeen : here.seen = there.seen) {first second : Diagnostic}
    (hText : first.text = second.text) : (here.note first).seen = (there.note second).seen := by
  obtain ⟨hState, hReports⟩ := Prod.mk.inj hSeen
  refine Prod.ext hState ?_
  show (here.note first).reports = (there.note second).reports
  rw [reports_note, reports_note, hReports, hText]

end Observed

/-! ## Runs that show the same -/

/-- Every fact, head and object. -/
def Vocabulary.everything : Vocabulary :=
  ⟨fun _ => True, fun _ => True, fun _ => True, True⟩

theorem Vocabulary.closed_everything : everything.Closed where
  fact _ _ := trivial
  head _ _ := trivial

theorem Vocabulary.coversNode_everything (node : Node) : everything.CoversNode node :=
  ⟨fun _ => trivial, fun _ => trivial, fun _ => trivial⟩

/-- Two runs against a snapshot show the same after diagnostics that show the same. -/
def Snapshot.ShowSame (post : α → Prop) (run other : Run α) : Prop :=
  ∀ here there : Observed Snapshot, here.seen = there.seen →
    (run here).1 = (other there).1 ∧ post (run here).1 ∧ (run here).2.seen = (other there).2.seen

/-- An access takes its answer from the snapshot, and changes nothing else. -/
theorem Snapshot.showSame_access (answer : Snapshot → α) (step : Snapshot → Snapshot) {post : α → Prop}
    (hPost : ∀ state, post (answer state)) :
    ShowSame post (fun observed => (answer observed.state, { observed with state := step observed.state }))
      fun observed => (answer observed.state, { observed with state := step observed.state }) := by
  intro here there hSeen
  obtain ⟨hState, hReports⟩ := Prod.mk.inj hSeen
  exact ⟨congrArg answer hState, hPost _, Prod.ext (congrArg step hState) hReports⟩

/-- The runs against a snapshot that show the same. -/
def Snapshot.showing (commit : Bool) : Coupling commit Run Run where
  vocabulary := .everything
  closed := Vocabulary.closed_everything
  known _ := True
  Coupled := ShowSame
  pure hPost here there hSeen := ⟨rfl, hPost, hSeen⟩
  bind {_ _ _ _ run other _ otherNext} hRun hNext here there hSeen := by
    obtain ⟨hSame, hMiddle, hHalfway⟩ := hRun here there hSeen
    obtain ⟨hSameNext, hPost, hFinal⟩ := hNext _ hMiddle _ _ hHalfway
    have hOther : (other >>= otherNext) there = otherNext (run here).1 (other there).2 := by
      rw [hSame]
      rfl
    rw [hOther]
    exact ⟨hSameNext, hPost, hFinal⟩
  weaken hRun hPost here there hSeen := by
    obtain ⟨hSame, hPre, hFinal⟩ := hRun here there hSeen
    exact ⟨hSame, hPost _ hPre, hFinal⟩
  holds {fact} _ := showSame_access (·.holds fact) id fun _ => trivial
  add {fact} _ _ := showSame_access (fun _ => true) (·.add fact) fun _ => trivial
  remove {fact} _ _ := showSame_access (fun _ => true) (·.remove fact) fun _ => trivial
  value? {head} _ := showSame_access (·.value? head.key) id fun _ _ => trivial
  write {assignment} _ _ _ := showSame_access (·.assigns assignment.head) (·.write assignment) fun _ => trivial
  objects _ := showSame_access Snapshot.objects id fun _ _ _ => trivial
  report _ _ hSeen := ⟨rfl, trivial, Observed.seen_note hSeen rfl⟩

namespace Problem

/-- Two results that show the same. -/
inductive SameResult (post : α → Prop) :
    EStateM.Result Unreachable (Observed Server) α → EStateM.Result Unreachable (Observed Server) α → Prop
  | ok {answer : α} {after final : Observed Server} (hPost : post answer) (hSeen : after.seen = final.seen) :
      SameResult post (.ok answer after) (.ok answer final)
  | error {cause : Unreachable} {after final : Observed Server} (hSeen : after.seen = final.seen) :
      SameResult post (.error cause after) (.error cause final)

/-- Two runs against a problem show the same after diagnostics that show the same. -/
def ShowSame (post : α → Prop) (run other : Run α) : Prop :=
  ∀ (problem : Problem) (here there : Observed Server), here.seen = there.seen →
    SameResult post (run problem here) (other problem there)

namespace ShowSame

theorem pure {post : α → Prop} {answer : α} (hPost : post answer) :
    ShowSame post (Pure.pure answer) (Pure.pure answer) :=
  fun _ _ _ hSeen => .ok hPost hSeen

theorem bind {middle : α → Prop} {post : β → Prop} {run other : Run α} {next otherNext : α → Run β}
    (hRun : ShowSame middle run other)
    (hNext : ∀ answer, middle answer → ShowSame post (next answer) (otherNext answer)) :
    ShowSame post (run >>= next) (other >>= otherNext) := by
  intro problem here there hSeen
  show SameResult post (EStateM.bind (run problem) _ here) (EStateM.bind (other problem) _ there)
  have hSame := hRun problem here there hSeen
  rw [EStateM.bind, EStateM.bind]
  generalize run problem here = result, other problem there = otherResult at hSame ⊢
  cases hSame with
  | ok hMiddle hHalfway => exact hNext _ hMiddle problem _ _ hHalfway
  | error hHalfway => exact .error hHalfway

theorem weaken {pre post : α → Prop} {run other : Run α} (hRun : ShowSame pre run other)
    (hPost : ∀ answer, pre answer → post answer) : ShowSame post run other := by
  intro problem here there hSeen
  have hSame := hRun problem here there hSeen
  generalize run problem here = result, other problem there = otherResult at hSame ⊢
  cases hSame with
  | ok hPre hFinal => exact .ok (hPost _ hPre) hFinal
  | error hFinal => exact .error hFinal

theorem ask (question : Problem → Database → α) {post : α → Prop} (hPost : ∀ answer, post answer) :
    ShowSame post (Run.ask question) (Run.ask question) := by
  intro problem here there hSeen
  rw [Run.ask, Run.ask, (Prod.mk.inj hSeen).1]
  cases there.state.ask problem.database (question problem) with
  | ok answer => exact .ok (hPost answer) hSeen
  | error cause => exact .error hSeen

theorem change (step : Problem → Database → Database) :
    ShowSame (fun _ => True) (Run.change step) (Run.change step) := by
  intro problem here there hSeen
  obtain ⟨hState, hReports⟩ := Prod.mk.inj hSeen
  rw [Run.change, Run.change, hState]
  cases there.state.change problem.database (step problem) with
  | ok server => exact .ok trivial (Prod.ext rfl hReports)
  | error cause => exact .error hSeen

/-- A change that is always possible. -/
theorem change_true (step : Problem → Database → Database) :
    ShowSame (fun _ => True) (do Run.change step; return true) (do Run.change step; return true) :=
  (change step).bind fun _ _ => .pure trivial

theorem add (fact : Fact) : ShowSame (fun _ => True) (Run.add fact) (Run.add fact) := by
  refine (ask _ fun _ => trivial).bind fun admitted _ => ?_
  split
  · exact change_true fun problem => problem.insert fact
  · exact .pure trivial

end ShowSame

/-- The runs against a problem that show the same. -/
def showing (commit : Bool) : Coupling commit Run Run where
  vocabulary := .everything
  closed := Vocabulary.closed_everything
  known _ := True
  Coupled := ShowSame
  pure := .pure
  bind := .bind
  weaken := .weaken
  holds _ := .ask _ fun _ => trivial
  add _ _ := .add _
  remove _ _ := .change_true _
  value? _ := .ask _ fun _ _ => trivial
  write _ _ _ := .change_true _
  objects _ := .ask _ fun _ _ _ => trivial
  report _ _ _ hSeen := .ok trivial (Observed.seen_note hSeen rfl)

end Problem

/-! ## Mirrored parts -/

section Mirrored

variable {commit : Bool} {m n : Type → Type} [Monad m] [Monad n] [FactBase m] [FactBase n]

/-- In a coupling every node may be evaluated, and reports with the same text have the same effect. -/
structure Coupling.Impartial (coupling : Coupling commit m n) : Prop where
  covers : ∀ node : Node, coupling.vocabulary.CoversNode node
  report : ∀ {first second : Diagnostic}, first.text = second.text →
    coupling.Alike (FactBase.report first) (FactBase.report second)

theorem Snapshot.impartial_showing (commit : Bool) : (Snapshot.showing commit).Impartial where
  covers := Vocabulary.coversNode_everything
  report hText _ _ hSeen := ⟨rfl, trivial, Observed.seen_note hSeen hText⟩

theorem Problem.impartial_showing (commit : Bool) : (Problem.showing commit).Impartial where
  covers := Vocabulary.coversNode_everything
  report hText _ _ _ hSeen := .ok trivial (Observed.seen_note hSeen hText)

variable {number : Int → Int} {part : Set Int} {height : Int → Nat}

/-- A place in a part of a tree, and the place of its counterpart; the depths are above the height of the node. -/
structure Place.Mirrored (number : Int → Int) (part : Set Int) (height : Int → Nat) (here there : Place) : Prop where
  mirrors : here.tree.Mirrors there.tree number part height
  mem : here.reference ∈ part
  reference_eq : there.reference = number here.reference
  height_lt : height here.reference < here.depth
  height_lt_other : height here.reference < there.depth

theorem diagnostic_text_eq {here there : Place}
    (hText : here.tree.text here.reference = there.tree.text there.reference) :
    here.diagnostic.text = there.diagnostic.text := by
  unfold Diagnostic.text Place.diagnostic
  exact congrArg (fun text => _ ++ text ++ _) hText

namespace Coupling.Impartial

variable {coupling : Coupling commit m n} (hImpartial : coupling.Impartial)

include hImpartial

/-- Evaluation goes on from mirrored places to mirrored places. -/
theorem unfolds {here there : Place} (hPlaces : Place.Mirrored number part height here there) :
    coupling.Unfolds (Place.Mirrored number part height) here there := by
  obtain ⟨hMirrors, hMem, hReference, hDepth, hBound⟩ := hPlaces
  obtain ⟨node, hNode, hOther, hChildren⟩ := hMirrors.node hMem
  have hText : here.tree.text here.reference = there.tree.text there.reference := by
    rw [hReference]
    exact hMirrors.text_eq hMem
  have hReport : coupling.ReportsAlike here there := hImpartial.report (diagnostic_text_eq hText)
  have hLowerDepth {child : Int} (hLower : height child < height here.reference) :
      height child < here.depth - 1 ∧ height child < there.depth - 1 := by
    omega
  rw [← hReference] at hOther
  refine .node (Nat.ne_zero_of_lt hDepth) (Nat.ne_zero_of_lt hBound) hReport hNode hOther (hImpartial.covers node)
    (fun _ => ?_) fun _ => ?_
  · refine List.forall₂_map_right_iff.mpr (List.forall₂_same.mpr fun child hChild => ?_)
    obtain ⟨hChildMem, hLower⟩ := hChildren child hChild
    exact ⟨hMirrors, hChildMem, rfl, (hLowerDepth hLower).1, (hLowerDepth hLower).2⟩
  · refine List.forall₂_map_right_iff.mpr (List.forall₂_same.mpr fun child hChild chosen _ _ => ?_)
    obtain ⟨hChildMem, hLower⟩ := hChildren child hChild
    have hRenamed := hMirrors.rename (node.parameterNames.zip chosen) hMem
    rw [← hReference] at hRenamed
    exact ⟨hRenamed, hChildMem, rfl, (hLowerDepth hLower).1, (hLowerDepth hLower).2⟩

/-- Evaluating a part and its counterpart, to depths that suffice. -/
theorem within {tree other : Tree} (hMirrors : tree.Mirrors other number part height) {reference : Int}
    (hMem : reference ∈ part) {depth bound : Nat} (hDepth : height reference < depth)
    (hBound : height reference < bound) (negated : Bool) :
    coupling.Alike (Evaluation.within commit depth tree reference negated)
      (Evaluation.within commit bound other (number reference) negated) := by
  have hPlaces : Place.Mirrored number part height ⟨depth, tree, reference⟩ ⟨bound, other, number reference⟩ :=
    ⟨hMirrors, hMem, rfl, hDepth, hBound⟩
  exact coupling.weaken (Coupling.within hImpartial.unfolds hPlaces negated) fun _ _ => trivial

end Coupling.Impartial
end Mirrored

/-! ## Trees that are evaluated alike -/

namespace Tree

/-- The first child of a negation. -/
def Negates (tree : Tree) (reference child : Int) : Prop :=
  ∃ node, tree.node? reference = some node ∧ node.kind = .negation ∧ node.children.head? = some child

theorem Negates.hasChild {tree : Tree} {reference child : Int} (hNegates : tree.Negates reference child) :
    tree.HasChild reference child := by
  obtain ⟨node, hNode, -, hFirst⟩ := hNegates
  exact ⟨node, hNode, List.mem_of_mem_head? hFirst⟩

section

variable {m : Type → Type} [Monad m] [FactBase m]

theorem Negates.within_eq {tree : Tree} {reference child : Int} (hNegates : tree.Negates reference child)
    (commit : Bool) (depth : Nat) (negated : Bool) :
    (Evaluation.within commit (depth + 1) tree reference negated : m Outcome) =
      Evaluation.within commit depth tree child (!negated) := by
  obtain ⟨node, hNode, hKind, hFirst⟩ := hNegates
  obtain ⟨rest, hChildren⟩ := List.head?_eq_some_iff.mp hFirst
  rw [Evaluation.within, hNode]
  simp only [hKind, hChildren]

/-- Two negations cancel out. -/
theorem Negates.evaluate_eq {tree : Tree} {outer inner part : Int} (hOuter : tree.Negates outer inner)
    (hInner : tree.Negates inner part) {depth : Nat} (hDepth : tree.size = depth + 1) (commit negated : Bool) :
    (evaluate commit tree outer negated : m Outcome) = Evaluation.within commit depth tree part negated := by
  have hSome : tree.isEmpty = false := by
    rw [isEmpty, List.isEmpty_eq_false_iff, ← List.length_pos_iff]
    rw [size] at hDepth
    omega
  rw [evaluate, hSome, hDepth]
  show Evaluation.within commit (depth + 1 + 1) tree outer negated = _
  rw [hOuter.within_eq, hInner.within_eq, Bool.not_not]

end

namespace EvaluatesLike

variable {tree other : Tree} {reference place : Int}

theorem trans {third : Tree} {position : Int} (hFirst : EvaluatesLike tree reference other place)
    (hSecond : EvaluatesLike other place third position) : EvaluatesLike tree reference third position where
  onSnapshot commit negated state :=
    (hFirst.onSnapshot commit negated state).trans (hSecond.onSnapshot commit negated state)
  onProblem commit negated problem server :=
    (hFirst.onProblem commit negated problem server).trans (hSecond.onProblem commit negated problem server)

theorem of_alike
    (hAlike : ∀ (commit negated : Bool) {m n : Type → Type} [Monad m] [Monad n] [FactBase m] [FactBase n]
      {coupling : Coupling commit m n}, coupling.Impartial →
        coupling.Alike (evaluate commit tree reference negated) (evaluate commit other place negated)) :
    EvaluatesLike tree reference other place where
  onSnapshot commit negated state := by
    obtain ⟨hOutcome, -, hSeen⟩ := hAlike commit negated (Snapshot.impartial_showing commit) (.start state) _ rfl
    exact Prod.ext hOutcome hSeen
  onProblem commit negated problem server := by
    have hSame := hAlike commit negated (Problem.impartial_showing commit) problem (.start server) _ rfl
    rw [Problem.seen, Problem.seen]
    generalize (evaluate commit tree reference negated : Problem.Run Outcome) problem (.start server) = result,
      (evaluate commit other place negated : Problem.Run Outcome) problem (.start server) = otherResult at hSame ⊢
    cases hSame with
    | ok _ hSeen => exact Prod.ext rfl hSeen
    | error hSeen => exact Prod.ext rfl hSeen

end EvaluatesLike

variable {tree other : Tree} {number : Int → Int} {part : Set Int} {height : Int → Nat} {reference : Int}

/-- Counterparts are evaluated alike. -/
theorem Mirrors.evaluatesLike (hMirrors : tree.Mirrors other number part height) (hMem : reference ∈ part) :
    EvaluatesLike tree reference other (number reference) := by
  refine .of_alike fun commit negated => fun hImpartial => ?_
  obtain ⟨hSome, hOtherSome⟩ := hMirrors.isEmpty_eq_false hMem
  rw [evaluate, evaluate, hSome, hOtherSome]
  exact hImpartial.within hMirrors hMem (Nat.lt_succ_of_lt (hMirrors.height_lt hMem))
    (Nat.lt_succ_of_lt (hMirrors.height_lt_other hMem)) negated

/-- A node is evaluated like two negations around it. -/
theorem SoundFrom.evaluatesLike_negates {outer inner : Int} (hSound : tree.SoundFrom outer)
    (hOuter : tree.Negates outer inner) (hInner : tree.Negates inner reference) :
    EvaluatesLike tree reference tree outer := by
  have hMirrors := hSound.mirrors (.refl tree outer)
  have hInnerReached : tree.Reaches outer inner := .single hOuter.hasChild
  have hMem : tree.Reaches outer reference := hInnerReached.tail hInner.hasChild
  -- The two negations use up two steps of the depth; what is below them needs less than that.
  have hOuterHeight := hMirrors.height_lt (Relation.ReflTransGen.refl : tree.Reaches outer outer)
  have hInnerHeight := hSound.ncard_below_lt .refl hOuter.hasChild
  have hHeight := hSound.ncard_below_lt hInnerReached hInner.hasChild
  obtain ⟨depth, hDepth⟩ := Nat.exists_eq_add_one_of_ne_zero (Nat.ne_zero_of_lt hOuterHeight)
  refine .of_alike fun commit negated => fun hImpartial => ?_
  rw [hOuter.evaluate_eq hInner hDepth, evaluate, (hMirrors.isEmpty_eq_false hMem).1]
  exact hImpartial.within hMirrors hMem (Nat.lt_succ_of_lt (hMirrors.height_lt hMem)) (by omega) negated

section

variable (condition : Condition) (objects : List String)

/-- A condition is evaluated alike alone and in a shared tree. -/
theorem evaluatesLike_pushCondition (before : Tree) (after : List Node) :
    EvaluatesLike (ofCondition (some condition) objects) 0
      ⟨(before.pushCondition condition objects).nodes ++ after⟩ before.size := by
  have hBlock := hasBlock_between before.nodes (condition.nodes objects before.size) after
  rw [← condition.layout_outline] at hBlock
  have hAlike := (mirrors_ofCondition condition objects hBlock).evaluatesLike (zero_mem_ofCondition condition objects)
  rw [Int.zero_add] at hAlike
  rw [pushCondition, ← condition.layout_outline]
  exact hAlike

/-- A condition is evaluated like its double negation. -/
theorem evaluatesLike_negation_negation :
    EvaluatesLike (ofCondition (some condition) objects) 0
      (ofCondition (some (.negation (.negation condition))) objects) 0 := by
  have hOuter := hasBlock_ofCondition (.negation (.negation condition)) objects
  rw [Condition.outline, Outline.layout, hasBlock_cons, Outline.layouts, Outline.layouts, List.append_nil] at hOuter
  obtain ⟨hOuterNode, hInner⟩ := hOuter
  rw [Condition.outline, Outline.layout, hasBlock_cons, Outline.layouts, Outline.layouts, List.append_nil] at hInner
  obtain ⟨hInnerNode, hBlock⟩ := hInner
  have hSound := soundFrom_ofCondition (.negation (.negation condition)) objects (Int.le_refl 0)
    (node?_lt hOuterNode).2
  have hPart := (mirrors_ofCondition condition objects hBlock).evaluatesLike (zero_mem_ofCondition condition objects)
  exact hPart.trans (hSound.evaluatesLike_negates ⟨_, hOuterNode, rfl, rfl⟩ ⟨_, hInnerNode, rfl, rfl⟩)

end

/-- Evaluation sees only what is reached from where it starts.  Two parts without cycles, all of whose references are
in range, are evaluated alike if one is a renumbering of the other.  So a condition is evaluated alike wherever it
is in a shared tree, and two negations around a part or a condition change nothing. -/
theorem evaluatesLike_of_renumbering :
    (∀ {tree other : Tree} {root place : Int} {number : Int → Int}, tree.SoundFrom root →
        Renumbering tree root other place number → EvaluatesLike tree root other place) ∧
      (∀ (condition : Condition) (objects : List String) (before : Tree) (after : List Node),
        EvaluatesLike (ofCondition (some condition) objects) 0
          ⟨(before.pushCondition condition objects).nodes ++ after⟩ before.size) ∧
      (∀ {tree : Tree} {outer inner reference : Int}, tree.SoundFrom outer → tree.Negates outer inner →
        tree.Negates inner reference → EvaluatesLike tree reference tree outer) ∧
      ∀ (condition : Condition) (objects : List String),
        EvaluatesLike (ofCondition (some condition) objects) 0
          (ofCondition (some (.negation (.negation condition))) objects) 0 := by
  refine ⟨fun hSound hNumber => ?_, evaluatesLike_pushCondition, fun hSound => hSound.evaluatesLike_negates,
    evaluatesLike_negation_negation⟩
  rw [← hNumber.maps_root]
  exact (hSound.mirrors hNumber).evaluatesLike Relation.ReflTransGen.refl

/-- Here a double negation is a child of one node twice, and stands in another order among a node that plays no
part. -/
theorem evaluatesLike_of_renumbering_shared :
    let atom : Node := { kind := .predicate, name := "p", parameters := [⟨"a", ""⟩] }
    let tree : Tree := ⟨[{ kind := .conjunction, children := [1, 1] }, { kind := .negation, children := [2] },
      { kind := .negation, children := [3] }, atom]⟩
    let other : Tree := ⟨[atom, { kind := .number, value := 1 }, { kind := .negation, children := [0] },
      { kind := .negation, children := [2] }, { kind := .conjunction, children := [3, 3] }]⟩
    let number : Int → Int := fun reference => if reference = 3 then 0 else 4 - reference
    (tree.SoundFrom 0 ∧ Renumbering tree 0 other 4 number ∧ EvaluatesLike tree 0 other 4) ∧
      tree.SoundFrom 1 ∧ tree.Negates 1 2 ∧ tree.Negates 2 3 ∧ EvaluatesLike tree 3 tree 1 := by
  intro atom tree other number
  have hChildren {index : Nat} {node : Node} (hNode : tree.nodes[index]? = some node) :
      ∀ child ∈ node.children, index < child ∧ child < tree.size := by
    have hAll : ∀ entry ∈ tree.nodes.zipIdx, ∀ child ∈ entry.1.children,
        (entry.2 : Int) < child ∧ child < tree.size := by
      decide
    exact hAll (node, index) (List.mk_mem_zipIdx_iff_getElem?.mpr hNode)
  have hSound : tree.SoundFrom 0 := soundFrom_of_children hChildren (by decide) (by decide)
  have hSoundInner : tree.SoundFrom 1 := soundFrom_of_children hChildren (by decide) (by decide)
  have hReached {reference : Int} (hReaches : tree.Reaches 0 reference) :
      reference = 0 ∨ reference = 1 ∨ reference = 2 ∨ reference = 3 := by
    obtain ⟨node, hNode⟩ := hSound.inRange hReaches
    obtain ⟨hLow, hHigh⟩ := node?_lt hNode
    have hSize : (tree.size : Int) = 4 := rfl
    omega
  have hNumber : Renumbering tree 0 other (number 0) number := by
    refine .of_injOn (fun first hFirst second hSecond hSame => ?_) fun hReaches => ?_
    · rcases hReached hFirst with rfl | rfl | rfl | rfl <;> rcases hReached hSecond with rfl | rfl | rfl | rfl <;>
        first | rfl | exact absurd hSame (by decide)
    · rcases hReached hReaches with rfl | rfl | rfl | rfl <;> exact ⟨_, rfl, rfl⟩
  have hOuter : tree.Negates 1 2 := ⟨_, rfl, rfl, rfl⟩
  have hInner : tree.Negates 2 3 := ⟨_, rfl, rfl, rfl⟩
  exact ⟨⟨hSound, hNumber, evaluatesLike_of_renumbering.1 hSound hNumber⟩, hSoundInner, hOuter, hInner,
    evaluatesLike_of_renumbering.2.2.1 hSoundInner hOuter hInner⟩

end Tree
end PlanLogic
