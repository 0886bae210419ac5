import PlanLogic.Proofs.Compilation.Outcomes
import PlanLogic.Proofs.Negation.Pushing
import PlanLogic.Snapshot.Document

/-!
# When a negation has the opposite truth

Since no connective is exchanged for its dual, a condition and its negation need not have opposite truths: a
conjunction of a true and a false part is false, and so is its negation.  They have if the condition is
decided unanimously, that is, if the parts of every connective and the choices of every quantifier agree.
Conversely, a condition that has the opposite truth of its negation, and all of whose parts have, is decided
unanimously.

Checking changes nothing, so all of this is about outcomes on one snapshot.
-/

namespace PlanLogic
namespace Interpreter

variable (naming : Naming ε) (state : Snapshot)

/-! ## Unanimous conditions -/

mutual

/-- A condition is decided unanimously: a connective has parts and all are decided alike, and a quantifier has
choices of objects that are decided alike, while any other choice is false with and without a negation, as
one that cannot be computed is. -/
def Unanimous (env : ε) (truth : Bool) : Condition → Prop
  | .conjunction parts => parts ≠ [] ∧ PartsUnanimous env truth parts
  | .disjunction parts => parts ≠ [] ∧ PartsUnanimous env truth parts
  | .negation part => Unanimous env (!truth) part
  | .atom head => state.holds (naming.fact env head) = truth
  | .comparison op left right => Interpreter.compare naming env false op left right state = .judged truth
  | .update _ _ _ => False
  | .quantified _ slots body => BodyUnanimous env truth slots body

/-- All conditions are decided alike. -/
def PartsUnanimous (env : ε) (truth : Bool) : List Condition → Prop
  | [] => True
  | part :: parts => Unanimous env truth part ∧ PartsUnanimous env truth parts

/-- The choices of objects for a body are decided alike. -/
def BodyUnanimous (env : ε) (truth : Bool) (slots : List Nat) : Option Condition → Prop
  | none => False
  | some body =>
    (∃ chosen ∈ choices (slots.map fun _ => state.objects),
        Unanimous (naming.bind env slots chosen) truth body) ∧
      ∀ chosen ∈ choices (slots.map fun _ => state.objects),
        Unanimous (naming.bind env slots chosen) truth body ∨
          ∀ negated, (outcome naming state (naming.bind env slots chosen) negated body).truth = false

end

theorem partsUnanimous_iff (env : ε) (truth : Bool) (parts : List Condition) :
    PartsUnanimous naming state env truth parts ↔ ∀ part ∈ parts, Unanimous naming state env truth part := by
  induction parts with
  | nil => simp [PartsUnanimous]
  | cons part parts ih => rw [PartsUnanimous, ih, List.forall_mem_cons]

theorem all_judged {outcomes : List Outcome} {truth : Bool} (hSome : outcomes ≠ [])
    (hEach : ∀ part ∈ outcomes, part = .judged truth) :
    outcomes.all Outcome.success = true ∧ outcomes.all Outcome.truth = truth ∧
      outcomes.any Outcome.truth = truth := by
  rw [List.eq_replicate_of_mem hEach]
  have hLength : outcomes.length ≠ 0 := fun hZero => hSome (List.length_eq_zero_iff.mp hZero)
  rw [List.all_replicate, List.all_replicate, List.any_replicate, if_neg hLength, if_neg hLength,
    if_neg hLength]
  exact ⟨rfl, rfl, rfl⟩

theorem find?_judged {outcomes : List Outcome} {truth : Bool} (hSome : .judged truth ∈ outcomes)
    (hEach : ∀ part ∈ outcomes, part = .judged truth ∨ part.truth = false) :
    (outcomes.find? Outcome.truth).getD (.judged false) = .judged truth := by
  cases hFound : outcomes.find? Outcome.truth with
  | none =>
      have hFalse := List.find?_eq_none.mp hFound _ hSome
      cases truth with
      | false => rfl
      | true => exact absurd rfl hFalse
  | some found =>
      have hTrue := List.find?_some hFound
      rcases hEach found (List.mem_of_find?_eq_some hFound) with hJudged | hFalse
      · exact hJudged
      · rw [hFalse] at hTrue
        exact absurd hTrue Bool.false_ne_true

theorem compare_judged {env : ε} {op : Comparison} {left right : Expression} {truth : Bool}
    (hTruth : Interpreter.compare naming env false op left right state = .judged truth) (negated : Bool) :
    Interpreter.compare naming env negated op left right state = .judged (negated != truth) := by
  rw [Interpreter.compare] at hTruth ⊢
  split at hTruth
  · next hSuccess =>
      rw [if_pos hSuccess]
      split at hTruth
      · next found hFound =>
          have hSame : found = truth := by simpa [Outcome.judged] using congrArg Outcome.truth hTruth
          rw [hSame]
      · exact absurd (congrArg Outcome.success hTruth) Bool.false_ne_true
  · exact absurd (congrArg Outcome.success hTruth) Bool.false_ne_true

mutual

/-- A condition that is decided unanimously can be computed, with or without a negation, and a negation
turns its truth around. -/
theorem outcome_of_unanimous : ∀ (condition : Condition) (env : ε) (truth negated : Bool),
    Unanimous naming state env truth condition →
      outcome naming state env negated condition = .judged (negated != truth)
  | .conjunction parts, env, truth, negated, hUnanimous => by
      have hParts := outcomes_of_unanimous parts env truth negated hUnanimous.2
      have hSome : parts.map (outcome naming state env negated) ≠ [] := by
        rw [Ne, List.map_eq_nil_iff]
        exact hUnanimous.1
      obtain ⟨hSuccess, hAll, -⟩ := all_judged hSome hParts
      rw [outcome_conjunction, hSuccess, hAll]
      rfl
  | .disjunction parts, env, truth, negated, hUnanimous => by
      have hParts := outcomes_of_unanimous parts env truth negated hUnanimous.2
      have hSome : parts.map (outcome naming state env negated) ≠ [] := by
        rw [Ne, List.map_eq_nil_iff]
        exact hUnanimous.1
      obtain ⟨hSuccess, -, hAny⟩ := all_judged hSome hParts
      rw [outcome_disjunction, hSuccess, hAny]
      rfl
  | .negation part, env, truth, negated, hUnanimous => by
      have hPart := outcome_of_unanimous part env (!truth) (!negated) hUnanimous
      rw [Bool.not_bne_not] at hPart
      exact hPart
  | .atom head, env, truth, negated, hUnanimous => by
      rw [← show state.holds (naming.fact env head) = truth from hUnanimous]
      rfl
  | .comparison op left right, env, truth, negated, hUnanimous =>
    compare_judged naming state hUnanimous negated
  | .update _ _ _, _, _, _, hUnanimous => hUnanimous.elim
  | .quantified _ _ none, _, _, _, hUnanimous => hUnanimous.elim
  | .quantified bindings slots (some body), env, truth, negated, hUnanimous => by
      obtain ⟨⟨witness, hMem, hWitness⟩, hEach⟩ := hUnanimous
      have hJudged := outcome_of_unanimous body (naming.bind env slots witness) truth negated hWitness
      rw [outcome_quantified]
      -- The search stops at the first true choice, which is judged as every choice that counts.
      apply find?_judged
      · rw [← hJudged]
        exact List.mem_map_of_mem hMem
      · intro found hFound
        obtain ⟨chosen, hChosen, rfl⟩ := List.mem_map.mp hFound
        rcases hEach chosen hChosen with hAlike | hFalse
        · exact Or.inl (outcome_of_unanimous body (naming.bind env slots chosen) truth negated hAlike)
        · exact Or.inr (hFalse negated)

theorem outcomes_of_unanimous : ∀ (parts : List Condition) (env : ε) (truth negated : Bool),
    PartsUnanimous naming state env truth parts →
      ∀ part ∈ parts.map (outcome naming state env negated), part = .judged (negated != truth)
  | [], _, _, _, _ => fun _ hMem => absurd hMem List.not_mem_nil
  | part :: parts, env, truth, negated, hUnanimous => by
      have hPart := outcome_of_unanimous part env truth negated hUnanimous.1
      have hParts := outcomes_of_unanimous parts env truth negated hUnanimous.2
      rw [List.map_cons, List.forall_mem_cons]
      exact ⟨hPart, hParts⟩

end

/-! ## Conditions with opposite negations -/

/-- A condition and its negation can both be computed and have opposite truths. -/
structure Opposite (env : ε) (condition : Condition) : Prop where
  success : ∀ negated, (outcome naming state env negated condition).success = true
  truth : (outcome naming state env true condition).truth = !(outcome naming state env false condition).truth

mutual

/-- A condition and all its parts are opposite to their negations, where a choice of objects that is false
with and without a negation does not count. -/
def OppositeThroughout (env : ε) : Condition → Prop
  | .conjunction parts => Opposite naming state env (.conjunction parts) ∧ PartsOpposite env parts
  | .disjunction parts => Opposite naming state env (.disjunction parts) ∧ PartsOpposite env parts
  | .negation part => OppositeThroughout env part
  | .atom head => Opposite naming state env (.atom head)
  | .comparison op left right => Opposite naming state env (.comparison op left right)
  | .update op target amount => Opposite naming state env (.update op target amount)
  | .quantified bindings slots body =>
    Opposite naming state env (.quantified bindings slots body) ∧ BodyOpposite env slots body

/-- All conditions and their parts are opposite to their negations. -/
def PartsOpposite (env : ε) : List Condition → Prop
  | [] => True
  | part :: parts => OppositeThroughout env part ∧ PartsOpposite env parts

/-- The choices of objects for a body are opposite to their negations, as far as they count. -/
def BodyOpposite (env : ε) (slots : List Nat) : Option Condition → Prop
  | none => True
  | some body => ∀ chosen ∈ choices (slots.map fun _ => state.objects),
      OppositeThroughout (naming.bind env slots chosen) body ∨
        ∀ negated, (outcome naming state (naming.bind env slots chosen) negated body).truth = false

end

/-- Alternatives that are each decided or do not count are decided alike, unless both truths occur. -/
theorem decided_alike {decided : Bool → α → Prop} (idle : α → Prop) {alternatives : List α}
    (hEach : ∀ alternative ∈ alternatives, (∃ truth, decided truth alternative) ∨ idle alternative)
    (hSome : ∃ alternative ∈ alternatives, ∃ truth, decided truth alternative)
    (hMixed : ¬ ((∃ yes ∈ alternatives, decided true yes) ∧ ∃ no ∈ alternatives, decided false no)) :
    ∃ truth, (∃ alternative ∈ alternatives, decided truth alternative) ∧
      ∀ alternative ∈ alternatives, decided truth alternative ∨ idle alternative := by
  obtain ⟨first, hFirst, truth, hTruth⟩ := hSome
  refine ⟨truth, ⟨first, hFirst, hTruth⟩, ?_⟩
  intro alternative hMem
  rcases hEach alternative hMem with ⟨other, hOther⟩ | hIdle
  · left
    cases truth with
    | false =>
        cases other with
        | false => exact hOther
        | true => exact absurd ⟨⟨alternative, hMem, hOther⟩, ⟨first, hFirst, hTruth⟩⟩ hMixed
    | true =>
        cases other with
        | false => exact absurd ⟨⟨first, hFirst, hTruth⟩, ⟨alternative, hMem, hOther⟩⟩ hMixed
        | true => exact hOther
  · exact Or.inr hIdle

/-- If both truths occur, then under either flag some alternative is true and some is false. -/
theorem exists_answer_of_mixed {decided : Bool → α → Prop} {answer : Bool → α → Bool} {alternatives : List α}
    (hAnswer : ∀ truth alternative, decided truth alternative →
      ∀ negated, answer negated alternative = (negated != truth))
    (hMixed : (∃ yes ∈ alternatives, decided true yes) ∧ ∃ no ∈ alternatives, decided false no)
    (negated truth : Bool) : ∃ alternative ∈ alternatives, answer negated alternative = truth := by
  -- The two witnesses change places with the flag.
  obtain ⟨⟨yes, hYes, hYesDecided⟩, ⟨no, hNo, hNoDecided⟩⟩ := hMixed
  by_cases hSame : negated = truth
  · refine ⟨no, hNo, ?_⟩
    rw [hAnswer false no hNoDecided, hSame, Bool.bne_false]
  · refine ⟨yes, hYes, ?_⟩
    rw [hAnswer true yes hYesDecided, Bool.bne_true]
    exact (Bool.eq_not_of_ne fun hTruth => hSame hTruth.symm).symm

theorem compare_success {env : ε} {op : Comparison} {left right : Expression}
    (hSuccess : (Interpreter.compare naming env false op left right state).success = true) :
    ∃ truth, Interpreter.compare naming env false op left right state = .judged truth := by
  rw [Interpreter.compare] at hSuccess ⊢
  split at hSuccess
  · next hBoth =>
      rw [if_pos hBoth]
      split at hSuccess
      · exact ⟨_, rfl⟩
      · exact absurd hSuccess Bool.false_ne_true
  · exact absurd hSuccess Bool.false_ne_true

variable {naming state}

theorem truth_of_unanimous (env : ε) (truth : Bool) (condition : Condition)
    (hUnanimous : Unanimous naming state env truth condition) (negated : Bool) :
    (outcome naming state env negated condition).truth = (negated != truth) :=
  congrArg Outcome.truth (outcome_of_unanimous naming state condition env truth negated hUnanimous)

theorem partsUnanimous_of_not_mixed {env : ε} {parts : List Condition}
    (hParts : ∀ part ∈ parts, ∃ truth, Unanimous naming state env truth part) (hSome : parts ≠ [])
    (hMixed : ¬ ((∃ yes ∈ parts, Unanimous naming state env true yes) ∧
      ∃ no ∈ parts, Unanimous naming state env false no)) :
    ∃ truth, parts ≠ [] ∧ PartsUnanimous naming state env truth parts := by
  obtain ⟨part, hPart⟩ := List.exists_mem_of_ne_nil parts hSome
  obtain ⟨truth, -, hAlike⟩ := decided_alike (fun _ => False) (fun part hMem => Or.inl (hParts part hMem))
    ⟨part, hPart, hParts part hPart⟩ hMixed
  refine ⟨truth, hSome, (partsUnanimous_iff naming state env truth parts).mpr ?_⟩
  exact fun part hMem => (hAlike part hMem).resolve_right not_false

/-- Parts that are decided are decided alike if their conjunction is opposite to its negation. -/
theorem unanimous_conjunction {env : ε} {parts : List Condition}
    (hParts : ∀ part ∈ parts, ∃ truth, Unanimous naming state env truth part)
    (hOpposite : Opposite naming state env (.conjunction parts)) :
    ∃ truth, Unanimous naming state env truth (.conjunction parts) := by
  have hTruth := hOpposite.truth
  rw [truth_conjunction, truth_conjunction] at hTruth
  apply partsUnanimous_of_not_mixed hParts
  · intro hNone
    rw [hNone] at hTruth
    exact absurd hTruth Bool.noConfusion
  · intro hMixed
    -- The part that is false is another one under the other flag, but under each there is one.
    have hFalse : ∀ negated,
        (parts.all fun part => (outcome naming state env negated part).truth) = false := by
      intro negated
      obtain ⟨part, hMem, hPart⟩ := exists_answer_of_mixed (truth_of_unanimous env) hMixed negated false
      rw [List.all_eq_false]
      exact ⟨part, hMem, by rw [hPart]; exact Bool.false_ne_true⟩
    rw [hFalse, hFalse] at hTruth
    exact absurd hTruth Bool.noConfusion

theorem unanimous_disjunction {env : ε} {parts : List Condition}
    (hParts : ∀ part ∈ parts, ∃ truth, Unanimous naming state env truth part)
    (hOpposite : Opposite naming state env (.disjunction parts)) :
    ∃ truth, Unanimous naming state env truth (.disjunction parts) := by
  have hTruth := hOpposite.truth
  rw [truth_disjunction, truth_disjunction] at hTruth
  apply partsUnanimous_of_not_mixed hParts
  · intro hNone
    rw [hNone] at hTruth
    exact absurd hTruth Bool.noConfusion
  · intro hMixed
    -- Here the part that is true changes with the flag.
    have hTrue : ∀ negated, (parts.any fun part => (outcome naming state env negated part).truth) = true := by
      intro negated
      obtain ⟨part, hMem, hPart⟩ := exists_answer_of_mixed (truth_of_unanimous env) hMixed negated true
      exact List.any_eq_true.mpr ⟨part, hMem, hPart⟩
    rw [hTrue, hTrue] at hTruth
    exact absurd hTruth Bool.noConfusion

theorem unanimous_quantified {env : ε} {bindings : List Binding} {slots : List Nat} {body : Condition}
    (hChoices : ∀ chosen ∈ choices (slots.map fun _ => state.objects),
      (∃ truth, Unanimous naming state (naming.bind env slots chosen) truth body) ∨
        ∀ negated, (outcome naming state (naming.bind env slots chosen) negated body).truth = false)
    (hOpposite : Opposite naming state env (.quantified bindings slots (some body))) :
    ∃ truth, Unanimous naming state env truth (.quantified bindings slots (some body)) := by
  have hTruth := hOpposite.truth
  rw [truth_quantified, truth_quantified] at hTruth
  apply decided_alike _ hChoices
  · -- Without a choice that counts both truths would be false.
    by_contra hNone
    have hFalse : ∀ negated, ((choices (slots.map fun _ => state.objects)).any fun chosen =>
        (outcome naming state (naming.bind env slots chosen) negated body).truth) = false := by
      intro negated
      rw [List.any_eq_false]
      intro chosen hMem
      rcases hChoices chosen hMem with hDecided | hIdle
      · exact absurd ⟨chosen, hMem, hDecided⟩ hNone
      · rw [hIdle negated]
        exact Bool.false_ne_true
    rw [hFalse, hFalse] at hTruth
    exact absurd hTruth Bool.noConfusion
  · intro hMixed
    have hTrue : ∀ negated, ((choices (slots.map fun _ => state.objects)).any fun chosen =>
        (outcome naming state (naming.bind env slots chosen) negated body).truth) = true := by
      intro negated
      rw [List.any_eq_true]
      exact exists_answer_of_mixed
        (fun truth chosen => truth_of_unanimous (naming.bind env slots chosen) truth body) hMixed negated true
    rw [hTrue, hTrue] at hTruth
    exact absurd hTruth Bool.noConfusion

mutual

/-- A condition that is opposite to its negation throughout is decided unanimously. -/
theorem unanimous_of_opposite : ∀ (condition : Condition) (env : ε),
    OppositeThroughout naming state env condition → ∃ truth, Unanimous naming state env truth condition
  | .conjunction parts, env, hOpposite =>
    unanimous_conjunction (unanimous_parts_of_opposite parts env hOpposite.2) hOpposite.1
  | .disjunction parts, env, hOpposite =>
    unanimous_disjunction (unanimous_parts_of_opposite parts env hOpposite.2) hOpposite.1
  | .negation part, env, hOpposite => by
      obtain ⟨truth, hPart⟩ := unanimous_of_opposite part env hOpposite
      refine ⟨!truth, ?_⟩
      show Unanimous naming state env (!!truth) part
      rw [Bool.not_not]
      exact hPart
  | .atom head, _, _ => ⟨_, rfl⟩
  | .comparison op left right, env, hOpposite => compare_success naming state (hOpposite.success false)
  | .update op target amount, env, hOpposite => by
      have hTruth := hOpposite.truth
      -- An update takes no notice of a negation.
      have hSame : outcome naming state env true (.update op target amount) =
          outcome naming state env false (.update op target amount) := rfl
      rw [hSame] at hTruth
      exact ((Bool.eq_not_self _).mp hTruth).elim
  | .quantified bindings slots none, env, hOpposite => absurd hOpposite.1.truth Bool.noConfusion
  | .quantified bindings slots (some body), env, hOpposite => by
      apply unanimous_quantified _ hOpposite.1
      intro chosen hMem
      rcases hOpposite.2 chosen hMem with hBody | hIdle
      · exact Or.inl (unanimous_of_opposite body (naming.bind env slots chosen) hBody)
      · exact Or.inr hIdle

theorem unanimous_parts_of_opposite : ∀ (parts : List Condition) (env : ε),
    PartsOpposite naming state env parts → ∀ part ∈ parts, ∃ truth, Unanimous naming state env truth part
  | [], _, _ => fun _ hMem => absurd hMem List.not_mem_nil
  | part :: parts, env, hOpposite => by
      rw [List.forall_mem_cons]
      exact ⟨unanimous_of_opposite part env hOpposite.1, unanimous_parts_of_opposite parts env hOpposite.2⟩

end

end Interpreter

/-! ## Trees of negations -/

open Interpreter

/-- The negation of a condition that was read.  Its tree gives what the condition gives with the negation
moved to the atoms and comparisons.  When it is checked, and the condition is decided unanimously, both can
be computed and have opposite truths; and a condition that is opposite to its negation throughout is decided
unanimously. -/
theorem evaluate_negation {text : String} {scope : Scope} {condition : Condition}
    (hText : Condition.ofText text scope = .ok (some condition)) (objects : List String)
    (observed : Observed Snapshot) :
    (∀ commit, Snapshot.Run.result
        (evaluate commit (Tree.ofCondition (some (.negation condition)) objects) 0 false) observed =
      Snapshot.Run.result (evaluate commit (Tree.ofCondition (some (condition.pushed true)) objects) 0 false)
        observed) ∧
    (∀ truth, Unanimous Naming.renaming observed.state (Term.lowered objects) truth condition →
      Snapshot.Run.result (evaluate false (Tree.ofCondition (some condition) objects) 0 false) observed =
          (.judged truth, observed.state) ∧
        Snapshot.Run.result (evaluate false (Tree.ofCondition (some (.negation condition)) objects) 0 false)
          observed = (.judged (!truth), observed.state)) ∧
    (OppositeThroughout Naming.renaming observed.state (Term.lowered objects) condition →
      ∃ truth, Unanimous Naming.renaming observed.state (Term.lowered objects) truth condition) := by
  have hScoped : condition.WellScoped scope.size := Condition.wellScoped_of_ofText hText
  have hNegation : (Condition.negation condition).WellScoped scope.size := hScoped
  have hPushed := Condition.wellScoped_pushed condition scope.size true hScoped
  refine ⟨fun commit => ?_, fun truth hUnanimous => ?_,
    unanimous_of_opposite condition (Term.lowered objects)⟩
  · rw [result_evaluate hNegation, result_evaluate hPushed, walk_pushed]
    rfl
  · rw [result_evaluate hScoped, result_evaluate hNegation, walk_check, walk_check]
    have hOutcome := fun negated => outcome_of_unanimous Naming.renaming observed.state condition
      (Term.lowered objects) truth negated hUnanimous
    have hPlain := hOutcome false
    have hOther := hOutcome true
    rw [Bool.false_bne] at hPlain
    rw [Bool.true_bne] at hOther
    exact ⟨by rw [hPlain], congrArg (fun found => (found, observed.state)) hOther⟩

/-- Here a quantifier over one object and a conjunction are decided unanimously. -/
theorem evaluate_negation_quantified :
    let condition := Condition.quantified [⟨"?x", "object"⟩] [0]
      (some (.conjunction [.atom ⟨"p", [.slot 0]⟩, .negation (.atom ⟨"q", [.slot 0]⟩)]))
    let state : Snapshot := ⟨[⟨"p", ["a"]⟩], []⟩
    Condition.ofText "(exists (?x) (and (p ?x) (not (q ?x))))" .empty = .ok (some condition) ∧
      Unanimous Naming.renaming state (Term.lowered []) true condition ∧
      Snapshot.Run.result (evaluate false (Tree.ofCondition (some condition) []) 0 false) (.start state) =
        (.judged true, state) ∧
      Snapshot.Run.result (evaluate false (Tree.ofCondition (some (.negation condition)) []) 0 false)
        (.start state) = (.judged false, state) := by
  intro condition state
  have hWords : (Token.ofText "(exists (?x) (and (p ?x) (not (q ?x))))").map Token.text =
      ["(", "exists", "(", "?x", ")", "(", "and", "(", "p", "?x", ")", "(", "not", "(", "q", "?x", ")", ")",
        ")", ")"] := by
    decide +kernel
  have hFirst : Condition.Denotes (Scope.extend .empty [⟨"?x", "object"⟩]) ["(", "p", "?x", ")"]
      (some (.atom ⟨"p", [.slot 0]⟩)) :=
    .atom (by decide +kernel) ⟨by decide, by decide⟩ (.cons (.slot (by decide) (by decide)) .nil)
  have hSecond : Condition.Denotes (Scope.extend .empty [⟨"?x", "object"⟩]) ["(", "q", "?x", ")"]
      (some (.atom ⟨"q", [.slot 0]⟩)) :=
    .atom (by decide +kernel) ⟨by decide, by decide⟩ (.cons (.slot (by decide) (by decide)) .nil)
  have hNegation : Condition.Denotes _ ["(", "not", "(", "q", "?x", ")", ")"] _ :=
    .negation (by decide +kernel) hSecond
  have hBody : Condition.Denotes _
      ["(", "and", "(", "p", "?x", ")", "(", "not", "(", "q", "?x", ")", ")", ")"] _ :=
    .conjunction (by decide +kernel) (.cons hFirst (.cons hNegation .nil))
  have hDeclares : Declares ["?x"] [⟨"?x", "object"⟩] := .untyped (by decide)
  have hText : Condition.ofText "(exists (?x) (and (p ?x) (not (q ?x))))" .empty = .ok (some condition) := by
    rw [Condition.ofText_eq_ok_iff, hWords]
    exact .quantified (by decide +kernel) hDeclares (by decide) hBody
  have hChoices : choices ([0].map fun _ => state.objects) = [["a"]] := by decide
  have hParts : Unanimous Naming.renaming state (Naming.renaming.bind (Term.lowered []) [0] ["a"]) true
      (.conjunction [.atom ⟨"p", [.slot 0]⟩, .negation (.atom ⟨"q", [.slot 0]⟩)]) :=
    ⟨List.cons_ne_nil _ _, show _ = _ by decide, show _ = _ by decide, trivial⟩
  have hUnanimous : Unanimous Naming.renaming state (Term.lowered []) true condition := by
    show BodyUnanimous Naming.renaming state (Term.lowered []) true [0] (some _)
    rw [BodyUnanimous, hChoices]
    refine ⟨⟨["a"], List.mem_singleton_self _, hParts⟩, fun chosen hMem => ?_⟩
    rw [List.mem_singleton.mp hMem]
    exact Or.inl hParts
  exact ⟨hText, hUnanimous, (evaluate_negation hText [] (.start state)).2.1 true hUnanimous⟩

/-- A conjunction of a true and a false part is false, and so is its negation. -/
theorem evaluate_negation_conjunction :
    let condition := Condition.conjunction [.atom ⟨"p", [.object "a"]⟩, .atom ⟨"p", [.object "b"]⟩]
    let state : Snapshot := ⟨[⟨"p", ["a"]⟩], []⟩
    Condition.ofText "(and (p a) (p b))" .empty = .ok (some condition) ∧
      Snapshot.ofText "(p a)" = .ok state ∧
      Snapshot.Run.result (evaluate false (Tree.ofCondition (some condition) []) 0 false) (.start state) =
        (.judged false, state) ∧
      Snapshot.Run.result (evaluate false (Tree.ofCondition (some (.negation condition)) []) 0 false)
        (.start state) = (.judged false, state) := by
  intro condition state
  have hWords : (Token.ofText "(and (p a) (p b))").map Token.text =
      ["(", "and", "(", "p", "a", ")", "(", "p", "b", ")", ")"] := by
    decide +kernel
  have hPart : ∀ word, IsWord word →
      Condition.Denotes .empty ["(", "p", word, ")"] (some (.atom ⟨"p", [.object word]⟩)) := by
    intro word hWord
    exact .atom (by decide +kernel) ⟨by decide, by decide⟩ (.cons (.object hWord) .nil)
  have hParts : Condition.DenoteParts .empty ["(", "p", "a", ")", "(", "p", "b", ")"]
      [.atom ⟨"p", [.object "a"]⟩, .atom ⟨"p", [.object "b"]⟩] :=
    .cons (hPart "a" ⟨by decide, by decide⟩) (.cons (hPart "b" ⟨by decide, by decide⟩) .nil)
  have hText : Condition.ofText "(and (p a) (p b))" .empty = .ok (some condition) := by
    rw [Condition.ofText_eq_ok_iff, hWords]
    exact .conjunction (by decide +kernel) hParts
  refine ⟨hText, ?_, ?_, ?_⟩
  · rfl
  · rfl
  · rfl

end PlanLogic
