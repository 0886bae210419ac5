import PlanLogic.Proofs.Compilation.Outcomes

/-!
# Truth does not depend on the arrangement of a snapshot

Two snapshots have the same contents if they hold the same facts, in any order and with any repetitions, and have
the same number for every head.  Their objects come in different orders, so a quantifier tries its choices in
different orders and may stop at another one.  What it stops at may also differ in whether all of it could be
computed.  But whether there is a true choice is the same, and so is the truth of every condition.
-/

namespace PlanLogic

/-- Two snapshots hold the same facts and have the same numbers. -/
structure Snapshot.SameContents (first second : Snapshot) : Prop where
  facts : ∀ fact, fact ∈ first.facts ↔ fact ∈ second.facts
  values : ∀ key, first.value? key = second.value? key

namespace Snapshot.SameContents

variable {first second : Snapshot} (hSame : first.SameContents second)

include hSame

theorem holds_eq (fact : Fact) : first.holds fact = second.holds fact := by
  rw [Bool.eq_iff_iff, holds, holds, List.contains_iff_mem, List.contains_iff_mem]
  exact hSame.facts fact

theorem mem_objects_iff (name : String) : name ∈ first.objects ↔ name ∈ second.objects := by
  rw [mem_objects, mem_objects]
  exact exists_congr fun fact => and_congr_left fun _ => hSame.facts fact

/-- The same objects can be chosen, perhaps in another order. -/
theorem mem_choices_iff (slots : List Nat) (chosen : List String) :
    chosen ∈ choices (slots.map fun _ => first.objects) ↔ chosen ∈ choices (slots.map fun _ => second.objects) := by
  induction slots generalizing chosen with
  | nil => rfl
  | cons slot slots ih =>
      cases chosen with
      | nil => simp [choices]
      | cons object chosen =>
          rw [List.map_cons, List.map_cons, mem_choices_cons, mem_choices_cons]
          exact and_congr (hSame.mem_objects_iff object) (ih chosen)

end Snapshot.SameContents

namespace Interpreter

variable (naming : Naming ε)

/-- What is checked of an update is not true, whether its new value can be computed or not. -/
theorem truth_update (state : Snapshot) (env : ε) (negated : Bool) (op : Update) (target : Atom)
    (amount : Expression) : (outcome naming state env negated (.update op target amount)).truth = false := by
  rw [outcome, walk, update]
  split
  · split
    · rfl
    · rfl
  · rfl

variable {first second : Snapshot}

/-- Numbers of expressions do not depend on the order of choices, so not even their outcomes differ. -/
theorem value_eq_of_sameContents (hSame : first.SameContents second) (env : ε) (expression : Expression) :
    value naming env first expression = value naming env second expression := by
  induction expression with
  | number _ => rfl
  | «variable» _ => rfl
  | constant _ => rfl
  | function head => rw [value, value, hSame.values]
  | arithmetic op left right ihLeft ihRight => rw [value, value, ihLeft, ihRight]

theorem compare_eq_of_sameContents (hSame : first.SameContents second) (env : ε) (negated : Bool)
    (op : Comparison) (left right : Expression) :
    Interpreter.compare naming env negated op left right first =
      Interpreter.compare naming env negated op left right second := by
  rw [Interpreter.compare, Interpreter.compare, value_eq_of_sameContents naming hSame env left,
    value_eq_of_sameContents naming hSame env right]

mutual

/-- A condition has the same truth on both snapshots. -/
theorem truth_eq_of_sameContents (hSame : first.SameContents second) :
    ∀ (condition : Condition) (env : ε) (negated : Bool),
      (outcome naming first env negated condition).truth = (outcome naming second env negated condition).truth
  | .conjunction parts, env, negated => by
      have hParts := truths_eq_of_sameContents hSame parts env negated
      rw [truth_conjunction, truth_conjunction, Bool.eq_iff_iff, List.all_eq_true, List.all_eq_true]
      exact forall₂_congr fun part hMem => by rw [hParts part hMem]
  | .disjunction parts, env, negated => by
      have hParts := truths_eq_of_sameContents hSame parts env negated
      rw [truth_disjunction, truth_disjunction, Bool.eq_iff_iff, List.any_eq_true, List.any_eq_true]
      exact exists_congr fun part => and_congr_right fun hMem => by rw [hParts part hMem]
  | .negation part, env, negated => truth_eq_of_sameContents hSame part env (!negated)
  | .atom head, env, negated =>
      congrArg (fun held => negated != held) (hSame.holds_eq (naming.fact env head))
  | .comparison op left right, env, negated =>
      congrArg Outcome.truth (compare_eq_of_sameContents naming hSame env negated op left right)
  | .update op target amount, env, negated => by
      rw [truth_update, truth_update]
  | .quantified _ _ none, _, _ => rfl
  | .quantified bindings slots (some body), env, negated => by
      have hBody := fun chosen => truth_eq_of_sameContents hSame body (naming.bind env slots chosen) negated
      rw [truth_quantified, truth_quantified, Bool.eq_iff_iff, List.any_eq_true, List.any_eq_true]
      -- A true choice of one order is among the choices of the other order.
      refine exists_congr fun chosen => and_congr (hSame.mem_choices_iff slots chosen) ?_
      rw [hBody chosen]

theorem truths_eq_of_sameContents (hSame : first.SameContents second) :
    ∀ (parts : List Condition) (env : ε) (negated : Bool), ∀ part ∈ parts,
      (outcome naming first env negated part).truth = (outcome naming second env negated part).truth
  | [], _, _ => fun _ hMem => absurd hMem List.not_mem_nil
  | part :: parts, env, negated =>
      List.forall_mem_cons.mpr ⟨truth_eq_of_sameContents hSame part env negated,
        truths_eq_of_sameContents hSame parts env negated⟩

end

end Interpreter

open Interpreter

/-- Whether a condition that was read holds, with any names put in for the variables of its scope, depends only on
the contents of the snapshot that it is checked against. -/
theorem check_ofCondition_eq_of_sameContents {text : String} {scope : Scope} {condition : Option Condition}
    (hText : Condition.ofText text scope = .ok condition) (objects : List String) {first second : Snapshot}
    (hSame : first.SameContents second) :
    ((check (Tree.ofCondition condition objects) 0 : Snapshot.Run Bool) (.start first)).1 =
      ((check (Tree.ofCondition condition objects) 0 : Snapshot.Run Bool) (.start second)).1 := by
  have hScoped := Condition.wellScoped_of_ofText hText
  have hCheck (state : Snapshot) :
      ((check (Tree.ofCondition condition objects) 0 : Snapshot.Run Bool) (.start state)).1 =
        (interpret Naming.renaming false (Term.lowered objects) condition state).1.truth :=
    congrArg (fun result => result.1.truth) (shows_evaluate false hScoped objects (.start state))
  rw [hCheck, hCheck]
  cases condition with
  | none => rfl
  | some condition => exact truth_eq_of_sameContents Naming.renaming hSame condition (Term.lowered objects) false

/-- Here the objects come in the other order.  The first snapshot stops at an object without a number, so not all of
the condition can be computed, and the second one stops at an object with a number. -/
theorem check_ofCondition_eq_of_sameContents_reversed :
    let condition := Condition.quantified [⟨"?x", "object"⟩] [0] (some (.disjunction
      [.atom ⟨"p", [.slot 0]⟩, .comparison .above (.function ⟨"f", [.slot 0]⟩) (.number 0)]))
    let first : Snapshot := ⟨[⟨"p", ["a"]⟩, ⟨"q", ["b"]⟩], [⟨⟨"f", ["b"]⟩, 1⟩, ⟨⟨"g", []⟩, 2⟩]⟩
    let second : Snapshot := ⟨[⟨"q", ["b"]⟩, ⟨"p", ["a"]⟩, ⟨"q", ["b"]⟩], [⟨⟨"g", []⟩, 2⟩, ⟨⟨"f", ["b"]⟩, 1⟩]⟩
    Condition.ofText "(exists (?x) (or (p ?x) (> (f ?x) 0)))" .empty = .ok (some condition) ∧
      first.SameContents second ∧
      ((check (Tree.ofCondition (some condition) []) 0 : Snapshot.Run Bool) (.start first)).1 =
        ((check (Tree.ofCondition (some condition) []) 0 : Snapshot.Run Bool) (.start second)).1 ∧
      (outcome Naming.renaming first (Term.lowered []) false condition).success = false ∧
      (outcome Naming.renaming second (Term.lowered []) false condition).success = true := by
  intro condition first second
  have hWords : (Token.ofText "(exists (?x) (or (p ?x) (> (f ?x) 0)))").map Token.text =
      ["(", "exists", "(", "?x", ")", "(", "or", "(", "p", "?x", ")", "(", ">", "(", "f", "?x", ")", "0", ")",
        ")", ")"] := by
    decide +kernel
  have hSlot : ArgumentsOf (Scope.extend .empty [⟨"?x", "object"⟩]) ["?x"] [.slot 0] :=
    .cons (.slot (by decide) (by decide)) .nil
  have hAtom : Condition.Denotes _ ["(", "p", "?x", ")"] (some (.atom ⟨"p", [.slot 0]⟩)) :=
    .atom (by decide +kernel) ⟨by decide, by decide⟩ hSlot
  have hNumber : DenotesExpression (Scope.extend .empty [⟨"?x", "object"⟩]) ["0"] (.number 0) :=
    .number ⟨by decide, by decide⟩ (by decide +kernel)
  have hComparison : Condition.Denotes _ ["(", ">", "(", "f", "?x", ")", "0", ")"] _ :=
    .comparison .above (by decide +kernel) (.function ⟨by decide, by decide⟩ (by decide) hSlot) hNumber
  have hBody : Condition.Denotes _
      ["(", "or", "(", "p", "?x", ")", "(", ">", "(", "f", "?x", ")", "0", ")", ")"] _ :=
    .disjunction (by decide +kernel) (.cons hAtom (.cons hComparison .nil))
  have hDeclares : Declares ["?x"] [⟨"?x", "object"⟩] := .untyped (by decide)
  have hText : Condition.ofText "(exists (?x) (or (p ?x) (> (f ?x) 0)))" .empty = .ok (some condition) := by
    rw [Condition.ofText_eq_ok_iff, hWords]
    exact .quantified (by decide +kernel) hDeclares (by decide) hBody
  have hSame : first.SameContents second := by
    refine ⟨fun fact => ?_, fun key => ?_⟩
    · simp only [first, second, List.mem_cons, List.not_mem_nil, or_false]
      rw [or_left_comm, or_self]
    · by_cases hKey : "(g)" = key
      · subst hKey
        rfl
      · -- Any other text is looked up past the head of another text.
        have hOther : ((Fact.mk "g" []).key == key) = false := beq_eq_false_iff_ne.mpr hKey
        simp only [first, second, Snapshot.value?, List.find?_cons, List.find?_nil, hOther]
  exact ⟨hText, hSame, check_ofCondition_eq_of_sameContents hText [] hSame, by decide +kernel, by decide +kernel⟩

end PlanLogic
