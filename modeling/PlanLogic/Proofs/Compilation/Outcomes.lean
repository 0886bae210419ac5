import PlanLogic.Proofs.Compilation.Simulation

/-!
# Outcomes of checking a condition

Checking a condition changes nothing, so all its parts are interpreted on one snapshot.  Then the outcome of a
connective is made of the outcomes of its parts, and that of a quantifier is the outcome of the first choice that
is true.
-/

namespace PlanLogic
namespace Interpreter

variable (naming : Naming ε) (state : Snapshot)

/-! ## Outcomes of checking -/

/-- The outcome of checking a condition. -/
def outcome (env : ε) (negated : Bool) (condition : Condition) : Outcome :=
  (walk naming false env negated condition state).1

theorem firstTrue_check {attempt : α → Step Outcome} {answer : α → Outcome}
    (hAttempt : ∀ alternative, attempt alternative state = (answer alternative, state))
    (alternatives : List α) :
    firstTrue attempt alternatives state =
      (((alternatives.map answer).find? Outcome.truth).getD (.judged false), state) := by
  induction alternatives with
  | nil => rfl
  | cons alternative rest ih =>
      rw [firstTrue, List.map_cons, List.find?_cons]
      show (if (attempt alternative state).1.truth then pure (attempt alternative state).1
        else firstTrue attempt rest : Step Outcome) (attempt alternative state).2 = _
      rw [hAttempt]
      cases hTruth : (answer alternative).truth with
      | true =>
          rw [if_pos rfl]
          rfl
      | false =>
          rw [if_neg Bool.false_ne_true]
          exact ih

mutual

/-- Checking leaves the snapshot as it is. -/
theorem walk_check_snd : ∀ (condition : Condition) (env : ε) (negated : Bool),
    (walk naming false env negated condition state).2 = state
  | .conjunction parts, env, negated => by
      rw [walk]
      show (walkParts naming false env negated parts state).2 = state
      rw [walkParts_check parts env negated]
  | .disjunction parts, env, negated => by
      rw [walk]
      show (walkParts naming false env negated parts state).2 = state
      rw [walkParts_check parts env negated]
  | .negation part, env, negated => walk_check_snd part env (!negated)
  | .atom _, _, _ => rfl
  | .comparison _ _ _, _, _ => rfl
  | .update op target amount, env, negated => by
      rw [walk, update]
      split
      · split
        · rfl
        · rfl
      · rfl
  | .quantified _ _ none, _, _ => rfl
  | .quantified bindings slots (some body), env, negated => by
      have hBody : ∀ chosen, walk naming false (naming.bind env slots chosen) negated body state =
          (outcome naming state (naming.bind env slots chosen) negated body, state) :=
        fun chosen => Prod.ext rfl (walk_check_snd body (naming.bind env slots chosen) negated)
      rw [walk, walkBody]
      show (firstTrue _ (choices (slots.map fun _ => state.objects)) state).2 = state
      rw [firstTrue_check state hBody]

theorem walkParts_check : ∀ (parts : List Condition) (env : ε) (negated : Bool),
    walkParts naming false env negated parts state = (parts.map (outcome naming state env negated), state)
  | [], _, _ => rfl
  | part :: parts, env, negated => by
      have hPart : walk naming false env negated part state =
          (outcome naming state env negated part, state) :=
        Prod.ext rfl (walk_check_snd part env negated)
      rw [walkParts]
      show ((walk naming false env negated part state).1 ::
          (walkParts naming false env negated parts (walk naming false env negated part state).2).1,
        (walkParts naming false env negated parts (walk naming false env negated part state).2).2) = _
      rw [hPart, walkParts_check parts env negated]
      rfl

end

theorem walk_check (env : ε) (negated : Bool) (condition : Condition) :
    walk naming false env negated condition state = (outcome naming state env negated condition, state) :=
  Prod.ext rfl (walk_check_snd naming state condition env negated)

theorem outcome_conjunction (env : ε) (negated : Bool) (parts : List Condition) :
    outcome naming state env negated (.conjunction parts) =
      ⟨(parts.map (outcome naming state env negated)).all Outcome.success,
        (parts.map (outcome naming state env negated)).all Outcome.truth, 0⟩ := by
  rw [outcome, walk]
  show Outcome.mk ((walkParts naming false env negated parts state).1.all Outcome.success)
    ((walkParts naming false env negated parts state).1.all Outcome.truth) 0 = _
  rw [walkParts_check]

theorem outcome_disjunction (env : ε) (negated : Bool) (parts : List Condition) :
    outcome naming state env negated (.disjunction parts) =
      ⟨(parts.map (outcome naming state env negated)).all Outcome.success,
        (parts.map (outcome naming state env negated)).any Outcome.truth, 0⟩ := by
  rw [outcome, walk]
  show Outcome.mk ((walkParts naming false env negated parts state).1.all Outcome.success)
    ((walkParts naming false env negated parts state).1.any Outcome.truth) 0 = _
  rw [walkParts_check]

theorem outcome_quantified (env : ε) (negated : Bool) (bindings : List Binding) (slots : List Nat)
    (body : Condition) :
    outcome naming state env negated (.quantified bindings slots (some body)) =
      (((choices (slots.map fun _ => state.objects)).map fun chosen =>
        outcome naming state (naming.bind env slots chosen) negated body).find? Outcome.truth).getD
          (.judged false) := by
  rw [outcome, walk, walkBody]
  show (firstTrue _ (choices (slots.map fun _ => state.objects)) state).1 = _
  rw [firstTrue_check state fun chosen => walk_check naming state (naming.bind env slots chosen) negated body]

/-! ## Truths -/

theorem truth_conjunction (env : ε) (negated : Bool) (parts : List Condition) :
    (outcome naming state env negated (.conjunction parts)).truth =
      parts.all fun part => (outcome naming state env negated part).truth := by
  rw [outcome_conjunction]
  exact List.all_map

theorem truth_disjunction (env : ε) (negated : Bool) (parts : List Condition) :
    (outcome naming state env negated (.disjunction parts)).truth =
      parts.any fun part => (outcome naming state env negated part).truth := by
  rw [outcome_disjunction]
  exact List.any_map

theorem truth_find? (outcomes : List Outcome) :
    ((outcomes.find? Outcome.truth).getD (.judged false)).truth = outcomes.any Outcome.truth := by
  induction outcomes with
  | nil => rfl
  | cons first outcomes ih =>
      rw [List.find?_cons, List.any_cons]
      cases hTruth : first.truth with
      | true => exact hTruth
      | false => exact ih

theorem truth_quantified (env : ε) (negated : Bool) (bindings : List Binding) (slots : List Nat)
    (body : Condition) :
    (outcome naming state env negated (.quantified bindings slots (some body))).truth =
      (choices (slots.map fun _ => state.objects)).any fun chosen =>
        (outcome naming state (naming.bind env slots chosen) negated body).truth := by
  rw [outcome_quantified, truth_find?, List.any_map]
  rfl

end Interpreter

/-! ## Trees of conditions -/

open Interpreter

theorem result_evaluate {condition : Condition} {size : Nat} (hScoped : condition.WellScoped size)
    (commit : Bool)
    (objects : List String) (observed : Observed Snapshot) :
    Snapshot.Run.result (evaluate commit (Tree.ofCondition (some condition) objects) 0 false) observed =
      walk Naming.renaming commit (Term.lowered objects) false condition observed.state := by
  have hBody : Condition.BodyWellScoped size (some condition) := hScoped
  exact shows_evaluate commit hBody objects observed

/-- Making an effect true that may be empty reports whether interpreting it succeeds. -/
theorem result_applyEffect {condition : Option Condition} {size : Nat}
    (hScoped : Condition.BodyWellScoped size condition) (objects : List String) (observed : Observed Snapshot) :
    Snapshot.Run.result (applyEffect (Tree.ofCondition condition objects) 0) observed =
      let interpreted := interpret Naming.renaming true (Term.lowered objects) condition observed.state
      (interpreted.1.success, interpreted.2) :=
  congrArg (fun result : Outcome × Snapshot => (result.1.success, result.2))
    (shows_evaluate true hScoped objects observed)

end PlanLogic
