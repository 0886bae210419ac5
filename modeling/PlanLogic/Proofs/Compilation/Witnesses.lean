import PlanLogic.Proofs.Compilation.Outcomes
import PlanLogic.Proofs.Documents.RoundTrip
import PlanLogic.Proofs.Evaluation.Locality
import PlanLogic.Proofs.Trees.Heights

/-!
# The choice that decides a quantifier

A quantifier is checked by trying its body on one choice of objects after the other.  Its outcome is that of the
first choice that comes out true, whether all of the body could be computed there or not.  So a choice that is true
and was computed makes the quantifier true, but it makes it computed only if no choice before it is true without
having been computed.  Only a disjunction can be true without having been computed; a body without one is decided
by its choices in any order.
-/

namespace PlanLogic

/-- The part could be computed and is true. -/
def Outcome.clean (outcome : Outcome) : Bool :=
  outcome.success && outcome.truth

/-- The trees on which a quantifier at the root of a tree tries its body, in order: one for each choice of objects
for its parameters. -/
def Tree.groundings (tree : Tree) (objects : List String) : List Tree :=
  match tree.node? 0 with
  | none => []
  | some node =>
    (choices (node.parameters.map fun _ => objects)).map fun chosen =>
      tree.rename 0 (node.parameterNames.zip chosen)

/-- The outcomes of checking the body of a quantifier, which is the node after it, with each choice of objects. -/
def Snapshot.attempts (state : Snapshot) (tree : Tree) : List Outcome :=
  (tree.groundings state.objects).map fun grounded => (state.seen false grounded 1 false).1

namespace Condition

mutual

/-- Whether a condition has no disjunction. -/
def disjunctionFree : Condition → Bool
  | .conjunction parts => partsDisjunctionFree parts
  | .disjunction _ => false
  | .negation part => disjunctionFree part
  | .atom _ => true
  | .comparison _ _ _ => true
  | .update _ _ _ => true
  | .quantified _ _ body => bodyDisjunctionFree body

/-- Whether conditions have no disjunction. -/
def partsDisjunctionFree : List Condition → Bool
  | [] => true
  | part :: parts => disjunctionFree part && partsDisjunctionFree parts

/-- Whether a condition that may be empty has no disjunction. -/
def bodyDisjunctionFree : Option Condition → Bool
  | none => true
  | some condition => disjunctionFree condition

end

end Condition

/-! ## The first outcome that is true -/

namespace Outcome

variable {outcomes : List Outcome}

/-- The first true outcome is clean exactly if a clean outcome comes before every other true one. -/
theorem clean_find?_iff :
    ((outcomes.find? truth).getD (.judged false)).clean = true ↔
      ∃ before outcome after, outcomes = before ++ outcome :: after ∧ outcome.clean = true ∧
        ∀ earlier ∈ before, earlier.truth = false := by
  constructor
  · intro hClean
    cases hFound : outcomes.find? truth with
    | none =>
        rw [hFound] at hClean
        exact absurd hClean Bool.false_ne_true
    | some outcome =>
        rw [hFound] at hClean
        obtain ⟨-, before, after, hSplit, hBefore⟩ := List.find?_eq_some_iff_append.mp hFound
        exact ⟨before, outcome, after, hSplit, hClean, fun earlier hMem => by simpa using hBefore earlier hMem⟩
  · rintro ⟨before, outcome, after, rfl, hClean, hBefore⟩
    have hTruth : outcome.truth = true := (Bool.and_eq_true_iff.mp hClean).2
    have hFound : (before ++ outcome :: after).find? truth = some outcome :=
      List.find?_eq_some_iff_append.mpr ⟨hTruth, before, after, rfl, fun earlier hMem => by simp [hBefore earlier hMem]⟩
    rw [hFound]
    exact hClean

end Outcome

/-! ## Conditions without disjunctions -/

namespace Interpreter

variable (naming : Naming ε) (state : Snapshot)

theorem success_compare {env : ε} {negated : Bool} {op : Comparison} {left right : Expression}
    (hTruth : (Interpreter.compare naming env negated op left right state).truth = true) :
    (Interpreter.compare naming env negated op left right state).success = true := by
  unfold Interpreter.compare at hTruth ⊢
  dsimp only at hTruth ⊢
  split at hTruth
  · next hOperands =>
      rw [if_pos hOperands]
      split at hTruth
      · rfl
      · exact absurd hTruth Bool.false_ne_true
  · exact absurd hTruth Bool.false_ne_true

mutual

/-- A condition without disjunctions is true only if all of it could be computed. -/
theorem success_of_truth : ∀ (condition : Condition) (env : ε) (negated : Bool),
    condition.disjunctionFree = true → (outcome naming state env negated condition).truth = true →
      (outcome naming state env negated condition).success = true
  | .conjunction parts, env, negated, hFree, hTruth => by
      rw [outcome_conjunction] at hTruth ⊢
      simp only [List.all_map, List.all_eq_true, Function.comp_apply] at hTruth ⊢
      exact fun part hMem => success_parts_of_truth parts env negated hFree part hMem (hTruth part hMem)
  | .disjunction parts, _, _, hFree, _ => absurd hFree Bool.false_ne_true
  | .negation part, env, negated, hFree, hTruth => success_of_truth part env (!negated) hFree hTruth
  | .atom _, _, _, _, _ => rfl
  | .comparison op left right, env, negated, _, hTruth => success_compare naming state hTruth
  | .update op target amount, env, negated, _, hTruth => by
      rw [outcome, walk, update] at hTruth
      split at hTruth
      · split at hTruth
        · exact absurd hTruth Bool.false_ne_true
        · exact absurd hTruth Bool.false_ne_true
      · exact absurd hTruth Bool.false_ne_true
  | .quantified _ _ none, _, _, _, _ => rfl
  | .quantified bindings slots (some body), env, negated, hFree, hTruth => by
      rw [outcome_quantified] at hTruth ⊢
      cases hFound : ((choices (slots.map fun _ => state.objects)).map fun chosen =>
          outcome naming state (naming.bind env slots chosen) negated body).find? Outcome.truth with
      | none => rfl
      | some found =>
          rw [hFound] at hTruth
          obtain ⟨chosen, -, rfl⟩ := List.mem_map.mp (List.mem_of_find?_eq_some hFound)
          exact success_of_truth body (naming.bind env slots chosen) negated hFree hTruth

theorem success_parts_of_truth : ∀ (parts : List Condition) (env : ε) (negated : Bool),
    Condition.partsDisjunctionFree parts = true → ∀ part ∈ parts,
      (outcome naming state env negated part).truth = true → (outcome naming state env negated part).success = true
  | [], _, _, _ => fun _ hMem => absurd hMem List.not_mem_nil
  | part :: parts, env, negated, hFree => by
      rw [Condition.partsDisjunctionFree, Bool.and_eq_true] at hFree
      exact List.forall_mem_cons.mpr
        ⟨success_of_truth part env negated hFree.1, success_parts_of_truth parts env negated hFree.2⟩

end

end Interpreter

/-! ## Trees of quantifiers -/

open Interpreter

theorem node?_quantified (bindings : List Binding) (slots : List Nat) (body : Condition) (objects : List String) :
    (Tree.ofCondition (some (.quantified bindings slots (some body))) objects).node? 0 =
      some { Condition.quantifierNode (Term.lowered objects) bindings slots with children := [1] } := by
  have hBlock := Tree.hasBlock_ofCondition (.quantified bindings slots (some body)) objects
  rw [Condition.outline, Condition.bodyOutlines, Outline.layout, Tree.hasBlock_cons] at hBlock
  exact hBlock.1

section

variable {size : Nat} {bindings : List Binding} {slots : List Nat} {body : Condition}
  (hScoped : (Condition.quantified bindings slots (some body)).WellScoped size) (objects : List String)
  (state : Snapshot)

include hScoped

/-- The outcome of checking the body in the tree that is renamed for a choice of objects. -/
theorem seen_grounded (chosen : List String) :
    (state.seen false ((Tree.ofCondition (some (.quantified bindings slots (some body))) objects).rename 0
        ((slots.map fun slot => Term.lowered objects (.slot slot)).zip chosen)) 1 false).1 =
      outcome Naming.renaming state (Naming.renaming.bind (Term.lowered objects) slots chosen) false body := by
  have hWhole := Tree.hasBlock_ofCondition (.quantified bindings slots (some body)) objects
  have hBlock := Evaluation.hasBlock_grounded hWhole chosen
  have hTree := Tree.size_ofCondition (.quantified bindings slots (some body)) objects
  have hShape := Tree.sameShape_rename ((slots.map fun slot => Term.lowered objects (.slot slot)).zip chosen) 0
  rw [(hShape _).size_eq] at hTree
  rw [Condition.outline, Condition.bodyOutlines, Outline.size, Outline.sizes, Outline.sizes] at hTree
  generalize Tree.rename _ 0 _ = grounded at hTree hBlock ⊢
  have hSome : grounded.isEmpty = false := by
    rw [Tree.isEmpty, List.isEmpty_eq_false_iff, ← List.length_pos_iff]
    rw [Tree.size] at hTree
    omega
  have hSize : (body.outline (Naming.renaming.bind (Term.lowered objects) slots chosen)).size ≤ grounded.size + 1 := by
    rw [Evaluation.size_outline_bind]
    omega
  show ((evaluate false grounded 1 false : Snapshot.Run Outcome) (.start state)).1 = _
  rw [evaluate, hSome]
  exact congrArg Prod.fst
    (Evaluation.shows_within false body _ _ 1 grounded _ false hScoped.2 hSize hBlock (.start state))

/-- The attempts are the outcomes of the body for the choices of objects. -/
theorem attempts_quantified :
    state.attempts (Tree.ofCondition (some (.quantified bindings slots (some body))) objects) =
      (choices (slots.map fun _ => state.objects)).map fun chosen =>
        outcome Naming.renaming state (Naming.renaming.bind (Term.lowered objects) slots chosen) false body := by
  have hSlots : slots.length = bindings.length := by
    rw [hScoped.1, List.length_range']
  have hNames := Evaluation.parameterNames_quantifierNode (Term.lowered objects) hSlots [1]
  have hDomains := Evaluation.map_parameters_quantifierNode (Term.lowered objects) hSlots state.objects
  rw [Snapshot.attempts, Tree.groundings, node?_quantified]
  dsimp only
  rw [hNames, hDomains, List.map_map]
  exact List.map_congr_left fun chosen _ => seen_grounded hScoped objects state chosen

/-- The outcome of a quantifier is that of its first true attempt. -/
theorem seen_eq_find?_attempts :
    (state.seen false (Tree.ofCondition (some (.quantified bindings slots (some body))) objects) 0 false).1 =
      ((state.attempts (Tree.ofCondition (some (.quantified bindings slots (some body))) objects)).find?
        Outcome.truth).getD (.judged false) := by
  rw [attempts_quantified hScoped, ← outcome_quantified]
  exact congrArg Prod.fst (result_evaluate hScoped false objects (.start state))

/-- The attempts at a body without disjunctions are clean if they are true. -/
theorem clean_of_mem_attempts (hFree : body.disjunctionFree = true) {attempt : Outcome}
    (hMem : attempt ∈ state.attempts (Tree.ofCondition (some (.quantified bindings slots (some body))) objects))
    (hTruth : attempt.truth = true) : attempt.clean = true := by
  rw [attempts_quantified hScoped] at hMem
  obtain ⟨chosen, -, rfl⟩ := List.mem_map.mp hMem
  exact Bool.and_eq_true_iff.mpr ⟨success_of_truth Naming.renaming state body _ false hFree hTruth, hTruth⟩

end

/-- Checking a quantifier that was read has the outcome of its first true attempt, and is false if there is none.  So
an attempt that is true and could be computed makes the quantifier true, wherever it stands; the quantifier could then
be computed too exactly if such an attempt comes before every other true one.  In a body without disjunctions
every true attempt could be computed. -/
theorem seen_quantified {text : String} {scope : Scope} {bindings : List Binding} {slots : List Nat}
    {body : Condition} (hText : Condition.ofText text scope = .ok (some (.quantified bindings slots (some body))))
    (objects : List String) (state : Snapshot) :
    let tree := Tree.ofCondition (some (.quantified bindings slots (some body))) objects
    let outcome := (state.seen false tree 0 false).1
    outcome = ((state.attempts tree).find? Outcome.truth).getD (.judged false) ∧
      (outcome.truth = true ↔ ∃ attempt ∈ state.attempts tree, attempt.truth = true) ∧
      (outcome.clean = true ↔
        ∃ before attempt after, state.attempts tree = before ++ attempt :: after ∧ attempt.clean = true ∧
          ∀ earlier ∈ before, earlier.truth = false) ∧
      (body.disjunctionFree = true →
        (outcome.clean = true ↔ ∃ attempt ∈ state.attempts tree, attempt.clean = true)) := by
  intro tree outcome
  have hScoped : (Condition.quantified bindings slots (some body)).WellScoped scope.size :=
    Condition.wellScoped_of_ofText hText
  have hOutcome : outcome = ((state.attempts tree).find? Outcome.truth).getD (.judged false) :=
    seen_eq_find?_attempts hScoped objects state
  have hTruth : outcome.truth = true ↔ ∃ attempt ∈ state.attempts tree, attempt.truth = true := by
    rw [hOutcome, truth_find?, List.any_eq_true]
  refine ⟨hOutcome, hTruth, hOutcome ▸ Outcome.clean_find?_iff, fun hFree => ⟨fun hClean => ?_, fun hSome => ?_⟩⟩
  · obtain ⟨before, attempt, after, hSplit, hAttempt, -⟩ := Outcome.clean_find?_iff.mp (hOutcome ▸ hClean)
    exact ⟨attempt, hSplit ▸ List.mem_append_right before List.mem_cons_self, hAttempt⟩
  · obtain ⟨attempt, hMem, hAttempt⟩ := hSome
    have hOutcomeTruth := hTruth.mpr ⟨attempt, hMem, (Bool.and_eq_true_iff.mp hAttempt).2⟩
    -- The outcome is itself an attempt, because it is true.
    cases hFound : (state.attempts tree).find? Outcome.truth with
    | none =>
        rw [hOutcome, hFound] at hOutcomeTruth
        exact absurd hOutcomeTruth Bool.false_ne_true
    | some found =>
        rw [hOutcome, hFound]
        exact clean_of_mem_attempts hScoped objects state hFree (List.mem_of_find?_eq_some hFound)
          (List.find?_some hFound)

/-- A fact and a comparison about the object of a quantifier, read from a text. -/
theorem denoteParts_marked :
    Condition.DenoteParts (Scope.empty.extend [⟨"?x", "object"⟩])
      ["(", "p", "?x", ")", "(", ">", "(", "f", "?x", ")", "1", ")"]
      [.atom ⟨"p", [.slot 0]⟩, .comparison .above (.function ⟨"f", [.slot 0]⟩) (.number 1)] := by
  have hSlot : ArgumentsOf (Scope.empty.extend [⟨"?x", "object"⟩]) ["?x"] [.slot 0] :=
    .cons (.slot (by decide) (by decide)) .nil
  have hAtom : Condition.Denotes _ ["(", "p", "?x", ")"] (some (.atom ⟨"p", [.slot 0]⟩)) :=
    .atom (by decide +kernel) ⟨by decide, by decide⟩ hSlot
  have hOne : DenotesExpression (Scope.empty.extend [⟨"?x", "object"⟩]) ["1"] (.number 1) :=
    .number ⟨by decide, by decide⟩ (by decide +kernel)
  have hComparison : Condition.Denotes _ ["(", ">", "(", "f", "?x", ")", "1", ")"] _ :=
    .comparison .above (by decide +kernel) (.function ⟨by decide, by decide⟩ (by decide) hSlot) hOne
  exact .cons hAtom (.cons hComparison .nil)

/-- Here the condition cannot be computed for the first object, and is true for the second. -/
theorem seen_quantified_second :
    let body := Condition.conjunction
      [.atom ⟨"p", [.slot 0]⟩, .comparison .above (.function ⟨"f", [.slot 0]⟩) (.number 1)]
    let tree := Tree.ofCondition (some (.quantified [⟨"?x", "object"⟩] [0] (some body))) []
    let state : Snapshot := ⟨[⟨"p", ["a"]⟩, ⟨"p", ["b"]⟩], [⟨⟨"f", ["b"]⟩, 2⟩]⟩
    Condition.ofText "(exists (?x) (and (p ?x) (> (f ?x) 1)))" .empty =
        .ok (some (.quantified [⟨"?x", "object"⟩] [0] (some body))) ∧
      (state.attempts tree).map Outcome.clean = [false, true] ∧
      (state.seen false tree 0 false).1.clean = true := by
  intro body tree state
  have hWords : (Token.ofText "(exists (?x) (and (p ?x) (> (f ?x) 1)))").map Token.text =
      ["(", "exists", "(", "?x", ")", "(", "and", "(", "p", "?x", ")", "(", ">", "(", "f", "?x", ")", "1", ")",
        ")", ")"] := by
    decide +kernel
  have hBody : Condition.Denotes _
      ["(", "and", "(", "p", "?x", ")", "(", ">", "(", "f", "?x", ")", "1", ")", ")"] (some body) :=
    .conjunction (by decide +kernel) denoteParts_marked
  have hDeclares : Declares ["?x"] [⟨"?x", "object"⟩] := .untyped (by decide)
  have hText : Condition.ofText "(exists (?x) (and (p ?x) (> (f ?x) 1)))" .empty =
      .ok (some (.quantified [⟨"?x", "object"⟩] [0] (some body))) := by
    rw [Condition.ofText_eq_ok_iff, hWords]
    exact .quantified (by decide +kernel) hDeclares (by decide) hBody
  have hAttempts : (state.attempts tree).map Outcome.clean = [false, true] := by decide +kernel
  have hSome : true ∈ (state.attempts tree).map Outcome.clean := by simp [hAttempts]
  exact ⟨hText, hAttempts, ((seen_quantified hText [] state).2.2.2 rfl).mpr (List.mem_map.mp hSome)⟩

/-- An attempt that is true and could be computed does not let a quantifier be computed if a true attempt before it
could not be.  With the facts in another order it does. -/
theorem seen_quantified_disjunction :
    let condition := Condition.quantified [⟨"?x", "object"⟩] [0] (some (.disjunction
      [.atom ⟨"p", [.slot 0]⟩, .comparison .above (.function ⟨"f", [.slot 0]⟩) (.number 1)]))
    let tree := Tree.ofCondition (some condition) []
    let state : Snapshot := ⟨[⟨"p", ["a"]⟩, ⟨"p", ["b"]⟩], [⟨⟨"f", ["b"]⟩, 2⟩]⟩
    let other : Snapshot := ⟨[⟨"p", ["b"]⟩, ⟨"p", ["a"]⟩], [⟨⟨"f", ["b"]⟩, 2⟩]⟩
    Condition.ofText "(exists (?x) (or (p ?x) (> (f ?x) 1)))" .empty = .ok (some condition) ∧
      Snapshot.ofText "(p a)\n(p b)\n(= (f b) 2)" = .ok state ∧
      Snapshot.ofText "(p b)\n(p a)\n(= (f b) 2)" = .ok other ∧
      (state.attempts tree).map Outcome.clean = [false, true] ∧
      (state.seen false tree 0 false).1.truth = true ∧
      (state.seen false tree 0 false).1.success = false ∧
      (other.seen false tree 0 false).1.clean = true := by
  intro condition tree state other
  have hWords : (Token.ofText "(exists (?x) (or (p ?x) (> (f ?x) 1)))").map Token.text =
      ["(", "exists", "(", "?x", ")", "(", "or", "(", "p", "?x", ")", "(", ">", "(", "f", "?x", ")", "1", ")",
        ")", ")"] := by
    decide +kernel
  have hBody : Condition.Denotes (Scope.empty.extend [⟨"?x", "object"⟩])
      ["(", "or", "(", "p", "?x", ")", "(", ">", "(", "f", "?x", ")", "1", ")", ")"] _ :=
    .disjunction (by decide +kernel) denoteParts_marked
  have hDeclares : Declares ["?x"] [⟨"?x", "object"⟩] := .untyped (by decide)
  have hText : Condition.ofText "(exists (?x) (or (p ?x) (> (f ?x) 1)))" .empty = .ok (some condition) := by
    rw [Condition.ofText_eq_ok_iff, hWords]
    exact .quantified (by decide +kernel) hDeclares (by decide) hBody
  exact ⟨hText, by decide +kernel, by decide +kernel, by decide +kernel, by decide +kernel, by decide +kernel,
    by decide +kernel⟩

end PlanLogic
