import PlanLogic.Proofs.Compilation.Environments
import PlanLogic.Proofs.Compilation.Outcomes
import Mathlib.Data.List.Nodup

/-!
# Removing the instances of a pattern

A negated quantifier over an atom removes the facts that the atom becomes when objects are chosen for the variables.
The objects are those of the snapshot before the first removal, and a removal never comes out true, so that no choice
is left out.  What remains are the facts that are no instance, in their old order.

Nothing is assumed of the names of the objects: also one that is called like a variable is put in, and is not
replaced again, because all variables of the one quantifier are replaced at once.
-/

namespace PlanLogic

/-! ## Choices of objects -/

/-- The objects of an environment are one of the choices. -/
theorem map_mem_choices {slots : List Nat} {objects : List String} {env : Environment}
    (hEnv : ∀ slot ∈ slots, env slot ∈ objects) : slots.map env ∈ choices (slots.map fun _ => objects) := by
  induction slots with
  | nil => exact List.mem_singleton_self []
  | cons slot slots ih =>
      obtain ⟨hFirst, hRest⟩ := List.forall_mem_cons.mp hEnv
      exact mem_choices_cons.mpr ⟨hFirst, ih hRest⟩

namespace Environment

/-- Where the objects of another environment were chosen, the two agree. -/
theorem bind_map (env other : Environment) {slots : List Nat} {slot : Nat} (hSlot : slot ∈ slots) :
    env.bind slots (slots.map other) slot = other slot := by
  rw [bind]
  induction slots with
  | nil => exact absurd hSlot List.not_mem_nil
  | cons first slots ih =>
      rw [List.map_cons, List.zip_cons_cons, List.lookup_cons]
      by_cases hFirst : slot = first
      · rw [beq_iff_eq.mpr hFirst, hFirst]
        rfl
      · rw [beq_eq_false_iff_ne.mpr hFirst]
        exact ih (List.mem_of_ne_of_mem hFirst hSlot)

/-- Environments that agree on the variables of an atom make it the same fact. -/
theorem fact_congr {env other : Environment} {head : Atom}
    (hAgree : ∀ slot, .slot slot ∈ head.args → env slot = other slot) :
    naming.fact env head = naming.fact other head := by
  refine congrArg (Fact.mk head.name) (List.map_congr_left fun arg hArg => ?_)
  cases arg with
  | slot slot => exact hAgree slot hArg
  | object word => rfl

end Environment

/-- What an atom becomes when objects are chosen for its variables. -/
def Atom.instances (head : Atom) (slots : List Nat) (objects : List String) : List Fact :=
  (choices (slots.map fun _ => objects)).map fun chosen =>
    Environment.naming.fact ((Environment.ofObjects []).bind slots chosen) head

/-- The instances of an atom are the facts that it becomes in the environments that take the variables to objects. -/
theorem Atom.mem_instances_iff {head : Atom} {slots : List Nat}
    (hSlots : ∀ slot, .slot slot ∈ head.args → slot ∈ slots) (objects : List String) (fact : Fact) :
    fact ∈ head.instances slots objects ↔
      ∃ env : Environment, (∀ slot ∈ slots, env slot ∈ objects) ∧ Environment.naming.fact env head = fact := by
  rw [instances, List.mem_map]
  constructor
  · rintro ⟨chosen, hChosen, rfl⟩
    obtain ⟨hLength, hObjects⟩ := of_mem_choices hChosen
    refine ⟨_, fun slot hSlot => ?_, rfl⟩
    obtain ⟨object, hObject, hFound⟩ := lookup_zip_of_mem hSlot hLength
    rw [Environment.bind, hFound]
    exact hObjects object hObject
  · rintro ⟨env, hEnv, rfl⟩
    exact ⟨slots.map env, map_mem_choices hEnv, Environment.fact_congr fun slot hSlot =>
      Environment.bind_map _ env (hSlots slot hSlot)⟩

/-- All facts of a snapshot that an atom with an argument can become, in any environment, are among the instances:
a variable that does not occur in it may stand for any object. -/
theorem Atom.fact_mem_instances {head : Atom} {slots : List Nat}
    (hSlots : ∀ slot, .slot slot ∈ head.args → slot ∈ slots) (hArgs : slots = [] ∨ head.args ≠ []) {state : Snapshot}
    {env : Environment} (hFact : Environment.naming.fact env head ∈ state.facts) :
    Environment.naming.fact env head ∈ head.instances slots state.objects := by
  have hObject : ∀ arg ∈ head.args, env.name arg ∈ state.objects := fun arg hArg =>
    Snapshot.mem_objects.mpr ⟨_, hFact, List.mem_map_of_mem hArg⟩
  rw [mem_instances_iff hSlots]
  obtain rfl | hSome := hArgs
  · exact ⟨env, fun slot hSlot => absurd hSlot List.not_mem_nil, rfl⟩
  · obtain ⟨any, hAny⟩ := List.exists_mem_of_ne_nil head.args hSome
    refine ⟨fun slot => if .slot slot ∈ head.args then env slot else env.name any, fun slot _ => ?_,
      Environment.fact_congr fun slot hSlot => if_pos hSlot⟩
    dsimp only
    split
    · next hOccurs => exact hObject _ hOccurs
    · exact hObject any hAny

/-! ## The names below the quantifier -/

/-- When the one quantifier of a condition without a scope has chosen objects, its variables are called by them and
the words by themselves. -/
theorem fact_bind_lowered {head : Atom} {count : Nat} (hScoped : head.WellScoped count) {chosen : List String}
    (hLength : chosen.length = count) (env : Environment) :
    Naming.renaming.fact (Naming.renaming.bind (Term.lowered []) (List.range' 0 count) chosen) head =
      Environment.naming.fact (env.bind (List.range' 0 count) chosen) head := by
  have hAgrees : Agrees 0 (Term.lowered []) (Environment.ofObjects []) :=
    agrees_lowered fun name hName => absurd hName List.not_mem_nil
  refine congrArg (Fact.mk head.name) (List.map_congr_left fun arg hArg => ?_)
  cases arg with
  | slot slot =>
      have hBound : slot < count := hScoped _ hArg
      have hRange : slot ∈ List.range' 0 count := by
        rw [List.mem_range'_1]
        omega
      obtain ⟨object, -, hFound⟩ := lookup_zip_of_mem hRange (by rw [List.length_range', hLength])
      calc Naming.renaming.bind (Term.lowered []) (List.range' 0 count) chosen (.slot slot)
          = (((List.range' 0 count).zip chosen).lookup slot).getD (Term.lowered [] (.slot slot)) :=
            hAgrees.name_bind count slot chosen
        _ = env.bind (List.range' 0 count) chosen slot := by
            rw [Environment.bind, hFound]
            rfl
  | object word =>
      -- A word is no variable, so it is called like no placeholder.
      exact Renaming.apply_of_notMem (hAgrees.notMem_of_not_isVariable (hScoped _ hArg))

/-! ## Removing one after the other -/

namespace Snapshot

/-- From a snapshot without repetitions, what remains is what is not removed, in the old order. -/
theorem foldl_remove {state : Snapshot} (hNodup : state.facts.Nodup) (facts : List Fact) :
    facts.foldl remove state = ⟨state.facts.filter (· ∉ facts), state.assignments⟩ := by
  have hErased : ∀ (facts : List Fact) (state : Snapshot),
      facts.foldl remove state = ⟨state.facts.diff facts, state.assignments⟩ := by
    intro facts
    induction facts with
    | nil => exact fun _ => rfl
    | cons fact facts ih =>
        intro state
        rw [List.foldl_cons, ih, List.diff_cons]
        rfl
  rw [hErased, hNodup.sdiff_eq_filter]

end Snapshot

namespace Interpreter

/-- A removal is never true, so all alternatives are tried. -/
theorem firstTrue_remove (fact : α → Fact) (alternatives : List α) (state : Snapshot) :
    firstTrue (fun alternative => atom true true (fact alternative)) alternatives state =
      (.judged false, (alternatives.map fact).foldl Snapshot.remove state) := by
  induction alternatives generalizing state with
  | nil => rfl
  | cons alternative rest ih => exact ih (state.remove (fact alternative))

/-- Interpreting the negated quantifier removes the instances of its atom one after the other. -/
theorem walk_negation_quantified {bindings : List Binding} {slots : List Nat} {head : Atom}
    (hRange : slots = List.range' 0 bindings.length) (hHead : head.WellScoped bindings.length)
    (state : Snapshot) :
    walk Naming.renaming true (Term.lowered []) false (.negation (.quantified bindings slots (some (.atom head))))
        state =
      (.judged false, (head.instances slots state.objects).foldl Snapshot.remove state) := by
  have hFacts : (choices (slots.map fun _ => state.objects)).map (fun chosen =>
      Naming.renaming.fact (Naming.renaming.bind (Term.lowered []) slots chosen) head) =
        head.instances slots state.objects := by
    refine List.map_congr_left fun chosen hChosen => ?_
    have hLength := (of_mem_choices hChosen).1
    rw [hRange, List.length_range'] at hLength
    rw [hRange]
    exact fact_bind_lowered hHead hLength.symm _
  have hAttempt : (fun chosen => walk Naming.renaming true (Naming.renaming.bind (Term.lowered []) slots chosen)
      (!false) (.atom head)) =
        fun chosen => atom true true
          (Naming.renaming.fact (Naming.renaming.bind (Term.lowered []) slots chosen) head) := by
    funext chosen
    rw [walk, Bool.not_false]
  rw [walk, walk, walkBody, hAttempt, ← hFacts]
  exact firstTrue_remove _ _ state

end Interpreter

open Interpreter

/-- Making true that nothing of a pattern holds, without a scope, is reported as done and removes exactly the
instances of the pattern, where the variables stand for objects of the snapshot; the other facts keep their order,
and numbers are not touched.  If the pattern has an argument, or there is no variable, no fact of the pattern is left,
whatever its objects are; so none is left if every variable occurs in the pattern. -/
theorem applyEffect_negation_quantified {text : String} {bindings : List Binding} {slots : List Nat} {head : Atom}
    (hText : Condition.ofText text .empty = .ok (some (.negation (.quantified bindings slots (some (.atom head))))))
    {state : Snapshot} (hNodup : state.facts.Nodup) :
    let effect := Tree.ofCondition (some (.negation (.quantified bindings slots (some (.atom head))))) []
    let instances := head.instances slots state.objects
    let remaining : Snapshot := ⟨state.facts.filter (· ∉ instances), state.assignments⟩
    Snapshot.Run.result (applyEffect effect 0) (.start state) = (true, remaining) ∧
      (∀ fact, fact ∈ instances ↔
        ∃ env : Environment, (∀ slot ∈ slots, env slot ∈ state.objects) ∧ Environment.naming.fact env head = fact) ∧
      (slots = [] ∨ head.args ≠ [] → ∀ env : Environment, Environment.naming.fact env head ∉ remaining.facts) := by
  intro effect instances remaining
  have hScoped := Condition.wellScoped_of_ofText hText
  have hRange : slots = List.range' 0 bindings.length := hScoped.1
  have hHead : head.WellScoped bindings.length := by
    have hBody : head.WellScoped (0 + bindings.length) := hScoped.2
    rwa [Nat.zero_add] at hBody
  have hSlots : ∀ slot, .slot slot ∈ head.args → slot ∈ slots := by
    intro slot hSlot
    have hBound : slot < bindings.length := hHead _ hSlot
    rw [hRange, List.mem_range'_1]
    omega
  refine ⟨?_, Atom.mem_instances_iff hSlots state.objects, fun hArgs env hRemaining => ?_⟩
  · rw [result_applyEffect hScoped, interpret, walk_negation_quantified hRange hHead]
    exact congrArg (Prod.mk true) (Snapshot.foldl_remove hNodup instances)
  · obtain ⟨hOld, hKept⟩ := List.mem_filter.mp hRemaining
    exact of_decide_eq_true hKept (Atom.fact_mem_instances hSlots hArgs hOld)

/-- A pattern with a variable and a word. -/
theorem applyEffect_negation_quantified_word :
    let head : Atom := ⟨"at", [.slot 0, .object "hall"]⟩
    let condition := Condition.negation (.quantified [⟨"?x", "object"⟩] [0] (some (.atom head)))
    let state : Snapshot :=
      ⟨[⟨"at", ["ann", "hall"]⟩, ⟨"at", ["bob", "yard"]⟩, ⟨"at", ["bob", "hall"]⟩], [⟨⟨"age", ["ann"]⟩, 9⟩]⟩
    Condition.ofText "(not (exists (?x) (at ?x hall)))" .empty = .ok (some condition) ∧
      state.facts.Nodup ∧
      Snapshot.Run.result (applyEffect (Tree.ofCondition (some condition) []) 0) (.start state) =
        (true, ⟨[⟨"at", ["bob", "yard"]⟩], [⟨⟨"age", ["ann"]⟩, 9⟩]⟩) ∧
      ∀ env : Environment, Environment.naming.fact env head ∉ [⟨"at", ["bob", "yard"]⟩] := by
  intro head condition state
  have hWords : (Token.ofText "(not (exists (?x) (at ?x hall)))").map Token.text =
      ["(", "not", "(", "exists", "(", "?x", ")", "(", "at", "?x", "hall", ")", ")", ")"] := by
    decide +kernel
  have hAtom : Condition.Denotes (Scope.empty.extend [⟨"?x", "object"⟩]) ["(", "at", "?x", "hall", ")"]
      (some (.atom head)) :=
    .atom (by decide +kernel) ⟨by decide, by decide⟩
      (.cons (.slot (by decide) (by decide)) (.cons (.object ⟨by decide, by decide⟩) .nil))
  have hText : Condition.ofText "(not (exists (?x) (at ?x hall)))" .empty = .ok (some condition) := by
    rw [Condition.ofText_eq_ok_iff, hWords]
    have hDeclares : Declares ["?x"] [⟨"?x", "object"⟩] := .untyped (by decide)
    have hQuantified : Condition.Denotes .empty
        ["(", "exists", "(", "?x", ")", "(", "at", "?x", "hall", ")", ")"] _ :=
      .quantified (by decide +kernel) hDeclares (by decide) hAtom
    exact .negation (by decide +kernel) hQuantified
  have hNodup : state.facts.Nodup := by decide
  obtain ⟨hResult, -, hNone⟩ := applyEffect_negation_quantified hText hNodup
  have hRemaining : state.facts.filter (· ∉ head.instances [0] state.objects) = [⟨"at", ["bob", "yard"]⟩] := by
    decide +kernel
  rw [hRemaining] at hResult hNone
  exact ⟨hText, hNodup, hResult, hNone (.inr (List.cons_ne_nil _ _))⟩

end PlanLogic
