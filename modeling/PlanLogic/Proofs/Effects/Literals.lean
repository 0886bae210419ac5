import PlanLogic.Proofs.Compilation.Outcomes
import Mathlib.Algebra.Group.Nat.Even
import Mathlib.Data.List.Nodup

/-!
# Effects made of literals

An effect without quantifiers, comparisons and updates is a sequence of literals, whatever its conjunctions and
disjunctions look like: its atoms from left to right, each with the number of negations around it.  Making it true
adds the facts under an even number of negations and removes the others, one after the other.  So the last literal
about a fact decides on it, and making the effect true once more changes nothing.
-/

namespace PlanLogic

/-- A fact under a number of negations. -/
structure Literal where
  depth : Nat
  fact : Fact

namespace Condition

mutual

/-- Whether a condition is made of conjunctions, disjunctions, negations and atoms only. -/
def isPlain : Condition → Bool
  | .conjunction parts => partsArePlain parts
  | .disjunction parts => partsArePlain parts
  | .negation part => isPlain part
  | .atom _ => true
  | .comparison _ _ _ => false
  | .update _ _ _ => false
  | .quantified _ _ _ => false

/-- Whether conditions are made of conjunctions, disjunctions, negations and atoms only. -/
def partsArePlain : List Condition → Bool
  | [] => true
  | part :: parts => isPlain part && partsArePlain parts

end

mutual

/-- The literals of a plain condition from left to right under given names of the terms, where the condition itself
is under a number of negations. -/
def literals (names : Term → String) (depth : Nat) : Condition → List Literal
  | .conjunction parts => partLiterals names depth parts
  | .disjunction parts => partLiterals names depth parts
  | .negation part => literals names (depth + 1) part
  | .atom head => [⟨depth, ⟨head.name, head.args.map names⟩⟩]
  | _ => []

/-- The literals of plain conditions. -/
def partLiterals (names : Term → String) (depth : Nat) : List Condition → List Literal
  | [] => []
  | part :: parts => literals names depth part ++ partLiterals names depth parts

end

end Condition

/-! ## Literals one after the other -/

namespace Literal

/-- Adds or removes the fact of a literal. -/
def enact (state : Snapshot) (literal : Literal) : Snapshot :=
  if Even literal.depth then state.add literal.fact else state.remove literal.fact

/-- A literal occurs in a list, and no later one is about the same fact. -/
def IsLastIn (literal : Literal) (literals : List Literal) : Prop :=
  ∃ before after, literals = before ++ literal :: after ∧ ∀ later ∈ after, later.fact ≠ literal.fact

theorem isLastIn_cons_iff {literal first : Literal} {literals : List Literal} :
    literal.IsLastIn (first :: literals) ↔
      literal.IsLastIn literals ∨ literal = first ∧ ∀ later ∈ literals, later.fact ≠ literal.fact := by
  constructor
  · rintro ⟨before, after, hSplit, hAfter⟩
    cases before with
    | nil =>
        obtain ⟨rfl, rfl⟩ := List.cons.inj hSplit
        exact .inr ⟨rfl, hAfter⟩
    | cons _ before =>
        obtain ⟨rfl, rfl⟩ := List.cons.inj hSplit
        exact .inl ⟨before, after, rfl, hAfter⟩
  · rintro (⟨before, after, rfl, hAfter⟩ | ⟨rfl, hAfter⟩)
    · exact ⟨first :: before, after, rfl, hAfter⟩
    · exact ⟨[], literals, rfl, hAfter⟩

variable {state : Snapshot} {fact : Fact}

/-- What is there after a literal: its own fact by its sign, any other fact if it was there. -/
theorem mem_enact_iff (hNodup : state.facts.Nodup) (literal : Literal) :
    fact ∈ (enact state literal).facts ↔
      literal.fact = fact ∧ Even literal.depth ∨ literal.fact ≠ fact ∧ fact ∈ state.facts := by
  rw [enact]
  by_cases hEven : Even literal.depth
  · rw [if_pos hEven, Snapshot.mem_add_iff]
    by_cases hHere : literal.fact = fact
    · simp [hHere, hEven]
    · simp [hHere, Ne.symm hHere]
  · rw [if_neg hEven, Snapshot.remove, hNodup.mem_erase_iff]
    by_cases hHere : literal.fact = fact
    · simp [hHere, hEven]
    · simp [hHere, Ne.symm hHere]

theorem nodup_enact (hNodup : state.facts.Nodup) (literal : Literal) : (enact state literal).facts.Nodup := by
  rw [enact]
  split
  · exact Snapshot.nodup_add hNodup literal.fact
  · exact hNodup.erase literal.fact

theorem assignments_enact (literal : Literal) : (enact state literal).assignments = state.assignments := by
  rw [enact]
  split
  · exact Snapshot.assignments_add state literal.fact
  · exact Snapshot.assignments_remove state literal.fact

theorem nodup_foldl_enact (hNodup : state.facts.Nodup) (literals : List Literal) :
    (literals.foldl enact state).facts.Nodup := by
  induction literals generalizing state with
  | nil => exact hNodup
  | cons first literals ih => exact ih (nodup_enact hNodup first)

theorem assignments_foldl_enact (literals : List Literal) :
    (literals.foldl enact state).assignments = state.assignments := by
  induction literals generalizing state with
  | nil => rfl
  | cons first literals ih => exact ih.trans (assignments_enact first)

/-- The last literal about a fact decides whether it is there afterwards. -/
theorem mem_foldl_enact_iff (hNodup : state.facts.Nodup) (literals : List Literal) :
    fact ∈ (literals.foldl enact state).facts ↔
      (∃ literal : Literal, literal.IsLastIn literals ∧ literal.fact = fact ∧ Even literal.depth) ∨
        (∀ literal ∈ literals, literal.fact ≠ fact) ∧ fact ∈ state.facts := by
  induction literals generalizing state with
  | nil =>
      have hNone : ∀ literal : Literal, ¬ literal.IsLastIn [] := by
        rintro literal ⟨before, after, hSplit, -⟩
        simp at hSplit
      simp [hNone]
  | cons first literals ih =>
      rw [List.foldl_cons, ih (nodup_enact hNodup first), mem_enact_iff hNodup first, List.forall_mem_cons]
      simp only [isLastIn_cons_iff]
      -- If no later literal is about the fact, the first one decides, or else what was there before.
      constructor
      · rintro (⟨literal, hLast, hFact⟩ | ⟨hLater, ⟨hHere, hEven⟩ | ⟨hOther, hOld⟩⟩)
        · exact .inl ⟨literal, .inl hLast, hFact⟩
        · exact .inl ⟨first, .inr ⟨rfl, hHere ▸ hLater⟩, hHere, hEven⟩
        · exact .inr ⟨⟨hOther, hLater⟩, hOld⟩
      · rintro (⟨literal, hLast | ⟨rfl, hLater⟩, hHere, hEven⟩ | ⟨⟨hOther, hLater⟩, hOld⟩)
        · exact .inl ⟨literal, hLast, hHere, hEven⟩
        · exact .inr ⟨hHere ▸ hLater, .inl ⟨hHere, hEven⟩⟩
        · exact .inr ⟨hLater, .inr ⟨hOther, hOld⟩⟩

end Literal

/-! ## Plain effects -/

namespace Interpreter

/-- A step that succeeds and enacts literals. -/
def Enacts (literals : List Literal) (step : Step α) (succeeds : α → Prop) : Prop :=
  ∀ state, succeeds (step state).1 ∧ (step state).2 = literals.foldl Literal.enact state

theorem enacts_atom (depth : Nat) (fact : Fact) :
    Enacts [⟨depth, fact⟩] (atom true (!decide (Even depth)) fact) fun outcome => outcome.success = true := by
  intro state
  rw [atom, if_pos rfl, List.foldl_cons, List.foldl_nil, Literal.enact]
  by_cases hEven : Even depth
  · simp [hEven]
  · simp [hEven]

mutual

/-- Making a plain condition true, under a number of negations, succeeds and enacts its literals. -/
theorem enacts_walk (names : Term → String) : ∀ (condition : Condition) (depth : Nat), condition.isPlain = true →
    Enacts (condition.literals names depth) (walk Naming.renaming true names (!decide (Even depth)) condition)
      fun outcome => outcome.success = true
  | .conjunction parts, depth, hPlain => by
      rw [walk, Condition.literals]
      exact enacts_walkParts names parts depth hPlain
  | .disjunction parts, depth, hPlain => by
      rw [walk, Condition.literals]
      exact enacts_walkParts names parts depth hPlain
  | .negation part, depth, hPlain => by
      have hFlag : (!!decide (Even depth)) = !decide (Even (depth + 1)) := by
        simp only [Nat.even_add_one, decide_not]
      rw [walk, Condition.literals, hFlag]
      exact enacts_walk names part (depth + 1) hPlain
  | .atom head, depth, _ => by
      rw [walk, Condition.literals]
      exact enacts_atom depth _
  | .comparison _ _ _, _, hPlain => absurd hPlain Bool.false_ne_true
  | .update _ _ _, _, hPlain => absurd hPlain Bool.false_ne_true
  | .quantified _ _ _, _, hPlain => absurd hPlain Bool.false_ne_true

theorem enacts_walkParts (names : Term → String) : ∀ (parts : List Condition) (depth : Nat),
    Condition.partsArePlain parts = true →
      Enacts (Condition.partLiterals names depth parts)
        (walkParts Naming.renaming true names (!decide (Even depth)) parts)
        fun outcomes => outcomes.all Outcome.success = true
  | [], _, _ => fun _ => ⟨rfl, rfl⟩
  | part :: parts, depth, hPlain => by
      obtain ⟨hPart, hParts⟩ := Bool.and_eq_true_iff.mp hPlain
      intro state
      obtain ⟨hSuccess, hState⟩ := enacts_walk names part depth hPart state
      obtain ⟨hRest, hAfter⟩ := enacts_walkParts names parts depth hParts
        (walk Naming.renaming true names (!decide (Even depth)) part state).2
      rw [walkParts, Condition.partLiterals, List.foldl_append, ← hState, ← hAfter]
      exact ⟨Bool.and_eq_true_iff.mpr ⟨hSuccess, hRest⟩, rfl⟩

end

end Interpreter

open Interpreter

/-- Making an effect of conjunctions, disjunctions, negations and atoms true is reported as done.  Afterwards a fact is
there if the last literal about it is under an even number of negations, or if no literal is about it and it was
there before.  Numbers are not touched, no fact is there twice, and making the effect true again changes no fact. -/
theorem applyEffect_literals {text : String} {scope : Scope} {condition : Option Condition}
    (hText : Condition.ofText text scope = .ok condition) (hPlain : condition.all Condition.isPlain = true)
    (objects : List String) {state : Snapshot} (hNodup : state.facts.Nodup) :
    let effect := Tree.ofCondition condition objects
    let literals := condition.elim [] (Condition.literals (Term.lowered objects) 0)
    let once := Snapshot.Run.result (applyEffect effect 0) (.start state)
    let twice := Snapshot.Run.result (applyEffect effect 0) (.start once.2)
    once.1 = true ∧
      (∀ fact, fact ∈ once.2.facts ↔
        (∃ literal : Literal, literal.IsLastIn literals ∧ literal.fact = fact ∧ Even literal.depth) ∨
          (∀ literal ∈ literals, literal.fact ≠ fact) ∧ fact ∈ state.facts) ∧
      once.2.assignments = state.assignments ∧
      once.2.facts.Nodup ∧
      twice.1 = true ∧ ∀ fact, fact ∈ twice.2.facts ↔ fact ∈ once.2.facts := by
  intro effect literals once twice
  have hRun (before : Snapshot) :
      Snapshot.Run.result (applyEffect effect 0) (.start before) = (true, literals.foldl Literal.enact before) := by
    rw [result_applyEffect (Condition.wellScoped_of_ofText hText)]
    cases condition with
    | none => rfl
    | some condition =>
        obtain ⟨hSuccess, hState⟩ := enacts_walk (Term.lowered objects) condition 0 hPlain before
        exact Prod.ext hSuccess hState
  have hOnce : once = (true, literals.foldl Literal.enact state) := hRun state
  have hTwice : twice = (true, literals.foldl Literal.enact once.2) := hRun once.2
  have hOnceNodup : once.2.facts.Nodup := by
    rw [hOnce]
    exact Literal.nodup_foldl_enact hNodup literals
  have hMem (fact : Fact) : fact ∈ once.2.facts ↔
      (∃ literal : Literal, literal.IsLastIn literals ∧ literal.fact = fact ∧ Even literal.depth) ∨
        (∀ literal ∈ literals, literal.fact ≠ fact) ∧ fact ∈ state.facts := by
    rw [hOnce]
    exact Literal.mem_foldl_enact_iff hNodup literals
  refine ⟨by rw [hOnce], hMem, ?_, hOnceNodup, by rw [hTwice], fun fact => ?_⟩
  · rw [hOnce]
    exact Literal.assignments_foldl_enact literals
  · rw [hTwice, Literal.mem_foldl_enact_iff hOnceNodup, hMem]
    -- What no literal is about is there after the effect as it was before.
    constructor
    · rintro (hLast | ⟨hNone, hLast | ⟨-, hOld⟩⟩)
      · exact .inl hLast
      · exact .inl hLast
      · exact .inr ⟨hNone, hOld⟩
    · rintro (hLast | ⟨hNone, hOld⟩)
      · exact .inl hLast
      · exact .inr ⟨hNone, .inr ⟨hNone, hOld⟩⟩

/-- A fact is added for a variable of the scope and removed by name. -/
theorem applyEffect_literals_removed :
    let scope := Scope.empty.extend [⟨"?x", "object"⟩]
    let condition := Condition.conjunction
      [.atom ⟨"p", [.slot 0]⟩, .disjunction [.atom ⟨"q", []⟩, .negation (.atom ⟨"p", [.object "a"]⟩)]]
    let state : Snapshot := ⟨[⟨"r", ["b"]⟩], []⟩
    let once := Snapshot.Run.result (applyEffect (Tree.ofCondition (some condition) ["a"]) 0) (.start state)
    Condition.ofText "(and (p ?x) (or (q) (not (p a))))" scope = .ok (some condition) ∧
      condition.isPlain = true ∧
      condition.literals (Term.lowered ["a"]) 0 = [⟨0, ⟨"p", ["a"]⟩⟩, ⟨0, ⟨"q", []⟩⟩, ⟨1, ⟨"p", ["a"]⟩⟩] ∧
      state.facts.Nodup ∧
      once.1 = true ∧
      (∀ fact, fact ∈ once.2.facts ↔ fact = ⟨"q", []⟩ ∨ fact = ⟨"r", ["b"]⟩) := by
  intro scope condition state once
  have hWords : (Token.ofText "(and (p ?x) (or (q) (not (p a))))").map Token.text =
      ["(", "and", "(", "p", "?x", ")", "(", "or", "(", "q", ")", "(", "not", "(", "p", "a", ")", ")", ")", ")"] := by
    decide +kernel
  have hFirst : Condition.Denotes scope ["(", "p", "?x", ")"] (some (.atom ⟨"p", [.slot 0]⟩)) :=
    .atom (by decide +kernel) ⟨by decide, by decide⟩ (.cons (.slot (by decide) (by decide)) .nil)
  have hSecond : Condition.Denotes scope ["(", "q", ")"] (some (.atom ⟨"q", []⟩)) :=
    .atom (by decide +kernel) ⟨by decide, by decide⟩ .nil
  have hThird : Condition.Denotes scope ["(", "p", "a", ")"] (some (.atom ⟨"p", [.object "a"]⟩)) :=
    .atom (by decide +kernel) ⟨by decide, by decide⟩ (.cons (.object ⟨by decide, by decide⟩) .nil)
  have hNegation : Condition.Denotes scope ["(", "not", "(", "p", "a", ")", ")"] _ :=
    .negation (by decide +kernel) hThird
  have hDisjunction : Condition.Denotes scope
      ["(", "or", "(", "q", ")", "(", "not", "(", "p", "a", ")", ")", ")"] _ :=
    .disjunction (by decide +kernel) (.cons hSecond (.cons hNegation .nil))
  have hText : Condition.ofText "(and (p ?x) (or (q) (not (p a))))" scope = .ok (some condition) := by
    rw [Condition.ofText_eq_ok_iff, hWords]
    exact .conjunction (by decide +kernel) (.cons hFirst (.cons hDisjunction .nil))
  have hNodup : state.facts.Nodup := List.nodup_singleton _
  obtain ⟨hSuccess, -⟩ := applyEffect_literals hText rfl ["a"] hNodup
  have hAfter : once.2.facts = [⟨"r", ["b"]⟩, ⟨"q", []⟩] := by rfl
  refine ⟨hText, rfl, rfl, hNodup, hSuccess, fun fact => ?_⟩
  rw [hAfter]
  simp [or_comm]

end PlanLogic
