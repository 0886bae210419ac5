import PlanLogic.Proofs.Compilation.Simulation

/-!
# Renaming and environments

A quantifier renames its placeholders in the tree of a condition.  If the objects are no variables, this never
touches a name that stands for an object already, and placeholders of different slots are different names.
So the names in a renamed tree are those that an environment gives, and evaluating the tree of a condition
amounts to interpreting the condition in an environment.
-/

namespace PlanLogic

/-! ## Placeholders and renamings -/

theorem placeholder_injective {slot other : Nat} (hSame : placeholder slot = placeholder other) :
    slot = other := by
  rw [placeholder, placeholder, String.ext_iff, String.toList_append, String.toList_append,
    List.append_cancel_left_eq] at hSame
  have hDigits := congrArg (fun chars => Nat.ofDigitChars 10 chars 0) hSame
  simpa [Nat.toString_eq_ofList_toDigits] using hDigits

theorem isVariable_placeholder (slot : Nat) : isVariable (placeholder slot) = true := by
  rw [isVariable, placeholder, String.toList_append]
  rfl

theorem not_isVariable_of_isGround {name : String} (hGround : isGround name = true) :
    isVariable name = false := by
  unfold isGround at hGround
  unfold isVariable
  split at hGround
  · exact absurd hGround Bool.false_ne_true
  · next c cs hChars =>
      rw [hChars, List.head?_cons]
      simpa using hGround

namespace Renaming

theorem find?_reverse_eq_none {names : Renaming} {name : String} (hName : name ∉ names.map Prod.fst) :
    (names.reverse.find? fun entry => entry.1 == name) = none := by
  rw [List.find?_eq_none]
  intro entry hEntry hSame
  apply hName
  rw [← beq_iff_eq.mp hSame]
  exact List.mem_map_of_mem (List.mem_reverse.mp hEntry)

theorem apply_of_notMem {names : Renaming} {name : String} (hName : name ∉ names.map Prod.fst) :
    names.apply name = name := by
  rw [apply, find?_reverse_eq_none hName]

/-- A name that a renaming has an entry for is replaced. -/
theorem apply_mem {names : Renaming} {name : String} (hName : name ∈ names.map Prod.fst) :
    ∃ entry ∈ names, names.apply name = entry.2 := by
  obtain ⟨entry, hEntry, hSame⟩ := List.mem_map.mp hName
  rw [apply]
  split
  · next found hFound => exact ⟨found, List.mem_reverse.mp (List.mem_of_find?_eq_some hFound), rfl⟩
  · next hNone =>
      have hOther := List.find?_eq_none.mp hNone entry (List.mem_reverse.mpr hEntry)
      exact absurd (beq_iff_eq.mpr hSame) hOther

theorem apply_cons_ne {old new name : String} (hName : old ≠ name) (rest : Renaming) :
    apply ((old, new) :: rest) name = apply rest name := by
  rw [apply, apply, List.reverse_cons, List.find?_append, List.find?_singleton,
    if_neg (by simpa using hName), Option.or_none]

theorem apply_cons_self {old : String} {rest : Renaming} (hOld : old ∉ rest.map Prod.fst) (new : String) :
    apply ((old, new) :: rest) old = new := by
  rw [apply, List.reverse_cons, List.find?_append, find?_reverse_eq_none hOld, List.find?_singleton,
    if_pos (beq_self_eq_true old)]
  rfl

/-- A renaming of the names of some slots is a lookup among the slots, if no other of them has the same
name. -/
theorem apply_zip_map (names : Nat → String) {slots : List Nat} {slot : Nat} (hNodup : slots.Nodup)
    (hOnly : ∀ other ∈ slots, names other = names slot → other = slot) (chosen : List String) :
    apply ((slots.map names).zip chosen) (names slot) =
      ((slots.zip chosen).lookup slot).getD (names slot) := by
  induction slots generalizing chosen with
  | nil => rfl
  | cons first slots ih =>
      rw [List.nodup_cons] at hNodup
      obtain ⟨hFirst, hNodup⟩ := hNodup
      cases chosen with
      | nil => rfl
      | cons object chosen =>
          rw [List.map_cons, List.zip_cons_cons, List.zip_cons_cons]
          by_cases hSlot : first = slot
          · -- The name of a slot that comes once is in the renaming once, so the order of its entries is no matter.
            subst hSlot
            rw [List.lookup_cons_self, Option.getD_some, apply_cons_self]
            intro hMem
            obtain ⟨entry, hEntry, hSame⟩ := List.mem_map.mp hMem
            obtain ⟨other, hOther, hName⟩ := List.mem_map.mp (List.of_mem_zip hEntry).1
            have hEqual := hOnly other (List.mem_cons_of_mem _ hOther) (hName.trans hSame)
            exact hFirst (hEqual ▸ hOther)
          · have hName : names first ≠ names slot := fun hSame => hSlot (hOnly first List.mem_cons_self hSame)
            have hSkip : (slot == first) = false := by
              rw [beq_eq_false_iff_ne]
              exact fun hSame => hSlot hSame.symm
            rw [apply_cons_ne hName, List.lookup_cons, hSkip]
            exact ih hNodup (fun other hOther => hOnly other (List.mem_cons_of_mem _ hOther)) chosen

end Renaming

/-! ## Objects of a snapshot -/

namespace Snapshot

/-- No fact is about a variable. -/
def Ground (state : Snapshot) : Prop :=
  ∀ fact ∈ state.facts, ∀ arg ∈ fact.args, isVariable arg = false

namespace Ground

variable {state : Snapshot} {fact : Fact}

theorem of_mem_objects (hGround : state.Ground) {name : String} (hName : name ∈ state.objects) :
    isVariable name = false := by
  obtain ⟨fact, hFact, hArg⟩ := mem_objects.mp hName
  exact hGround fact hFact name hArg

theorem add (hGround : state.Ground) (hFact : ∀ arg ∈ fact.args, isVariable arg = false) :
    (state.add fact).Ground := by
  intro other hOther
  rcases mem_add_iff.mp hOther with rfl | hOld
  · exact hFact
  · exact hGround other hOld

theorem remove (hGround : state.Ground) : (state.remove fact).Ground :=
  fun other hOther => hGround other (List.mem_of_mem_erase hOther)

end Ground
end Snapshot

theorem lookup_zip_of_mem {slots : List Nat} {chosen : List String} {slot : Nat} (hSlot : slot ∈ slots)
    (hLength : slots.length = chosen.length) :
    ∃ object ∈ chosen, (slots.zip chosen).lookup slot = some object := by
  induction slots generalizing chosen with
  | nil => exact absurd hSlot List.not_mem_nil
  | cons first slots ih =>
      cases chosen with
      | nil => exact absurd hLength (Nat.succ_ne_zero _)
      | cons object chosen =>
          rw [List.zip_cons_cons, List.lookup_cons]
          by_cases hFirst : slot = first
          · rw [beq_iff_eq.mpr hFirst]
            exact ⟨object, List.mem_cons_self, rfl⟩
          · obtain ⟨found, hMem, hFound⟩ := ih (List.mem_of_ne_of_mem hFirst hSlot) (Nat.succ.inj hLength)
            rw [beq_eq_false_iff_ne.mpr hFirst]
            exact ⟨found, List.mem_cons_of_mem object hMem, hFound⟩

theorem lookup_zip_of_notMem {slots : List Nat} {slot : Nat} (hSlot : slot ∉ slots) (chosen : List String) :
    (slots.zip chosen).lookup slot = none := by
  rw [List.lookup_eq_none_iff]
  intro entry hEntry
  rw [bne_iff_ne]
  intro hSame
  exact hSlot (hSame ▸ (List.of_mem_zip hEntry).1)

/-! ## Names that agree with an environment -/

/-- Names agree with an environment in a scope with `size` variables: the variables of the scope are called
by their objects, which are no variables, and any later slot by its placeholder. -/
structure Agrees (size : Nat) (names : Term → String) (env : Environment) : Prop where
  visible : ∀ slot < size, names (.slot slot) = env slot
  bound : ∀ slot < size, isVariable (env slot) = false
  free : ∀ slot, size ≤ slot → names (.slot slot) = placeholder slot
  word : ∀ word, isVariable word = false → names (.object word) = word

namespace Agrees

variable {size : Nat} {names : Term → String} {env : Environment}

theorem name_eq (hAgrees : Agrees size names env) {arg : Term} (hScoped : arg.WellScoped size) :
    names arg = env.name arg := by
  cases arg with
  | slot slot => exact hAgrees.visible slot hScoped
  | object word => exact hAgrees.word word hScoped

theorem not_isVariable_name (hAgrees : Agrees size names env) {arg : Term} (hScoped : arg.WellScoped size) :
    isVariable (env.name arg) = false := by
  cases arg with
  | slot slot => exact hAgrees.bound slot hScoped
  | object word => exact hScoped

/-- Only a slot of the quantifier is called by its placeholder. -/
theorem eq_of_name_eq (hAgrees : Agrees size names env) {slot other : Nat} (hOther : size ≤ other)
    (hSame : names (.slot other) = names (.slot slot)) : other = slot := by
  rw [hAgrees.free other hOther] at hSame
  by_cases hSlot : slot < size
  · have hBound := hAgrees.bound slot hSlot
    rw [← hAgrees.visible slot hSlot, ← hSame, isVariable_placeholder] at hBound
    exact absurd hBound Bool.noConfusion
  · rw [hAgrees.free slot (by omega)] at hSame
    exact placeholder_injective hSame

/-- The names of the slots of a quantifier are placeholders. -/
theorem notMem_of_not_isVariable (hAgrees : Agrees size names env) {count : Nat} {chosen : List String}
    {name : String} (hName : isVariable name = false) :
    name ∉ (((List.range' size count).map fun slot => names (.slot slot)).zip chosen).map Prod.fst := by
  intro hMem
  obtain ⟨entry, hEntry, rfl⟩ := List.mem_map.mp hMem
  obtain ⟨slot, hSlot, hSame⟩ := List.mem_map.mp (List.of_mem_zip hEntry).1
  rw [List.mem_range'_1] at hSlot
  rw [← hSame, hAgrees.free slot hSlot.1, isVariable_placeholder] at hName
  exact absurd hName Bool.noConfusion

theorem name_bind (hAgrees : Agrees size names env) (count slot : Nat) (chosen : List String) :
    Naming.renaming.bind names (List.range' size count) chosen (.slot slot) =
      (((List.range' size count).zip chosen).lookup slot).getD (names (.slot slot)) := by
  -- Outer slots may have been renamed to objects, but no object is a placeholder.
  have hOnly : ∀ other ∈ List.range' size count, names (.slot other) = names (.slot slot) → other = slot := by
    intro other hOther hSame
    rw [List.mem_range'_1] at hOther
    exact hAgrees.eq_of_name_eq hOther.1 hSame
  exact Renaming.apply_zip_map (fun slot => names (.slot slot)) List.nodup_range' hOnly chosen

/-- A quantifier binds its slots in the same way in the names and in the environment. -/
theorem bind (hAgrees : Agrees size names env) {count : Nat} {chosen : List String}
    (hLength : chosen.length = count)
    (hChosen : ∀ name ∈ chosen, isVariable name = false) :
    Agrees (size + count) (Naming.renaming.bind names (List.range' size count) chosen)
      (env.bind (List.range' size count) chosen) := by
  have hFound : ∀ slot, size ≤ slot → slot < size + count →
      ∃ object ∈ chosen, ((List.range' size count).zip chosen).lookup slot = some object := by
    intro slot hLow hHigh
    apply lookup_zip_of_mem (List.mem_range'_1.mpr ⟨hLow, hHigh⟩)
    rw [List.length_range', hLength]
  have hNone : ∀ slot, ¬ (size ≤ slot ∧ slot < size + count) →
      ((List.range' size count).zip chosen).lookup slot = none := by
    intro slot hSlot
    apply lookup_zip_of_notMem
    rwa [List.mem_range'_1]
  constructor
  · intro slot hSlot
    rw [hAgrees.name_bind, Environment.bind]
    -- An outer variable is called by its object, which is no placeholder and therefore stays.
    by_cases hOuter : slot < size
    · rw [hNone slot (by omega), hAgrees.visible slot hOuter]
    · obtain ⟨object, -, hObject⟩ := hFound slot (by omega) hSlot
      rw [hObject]
      rfl
  · intro slot hSlot
    rw [Environment.bind]
    by_cases hOuter : slot < size
    · rw [hNone slot (by omega)]
      exact hAgrees.bound slot hOuter
    · obtain ⟨object, hMem, hObject⟩ := hFound slot (by omega) hSlot
      rw [hObject]
      exact hChosen object hMem
  · intro slot hSlot
    rw [hAgrees.name_bind, hNone slot (by omega)]
    exact hAgrees.free slot (by omega)
  -- A word is no placeholder, whatever is chosen.
  · intro word hWord
    have hName := hAgrees.word word hWord
    show Renaming.apply _ (names (.object word)) = word
    rw [hName]
    exact Renaming.apply_of_notMem (hAgrees.notMem_of_not_isVariable hWord)

/-! ## Agreement of the interpreters -/

theorem fact_eq (hAgrees : Agrees size names env) {head : Atom} (hScoped : head.WellScoped size) :
    Naming.renaming.fact names head = Environment.naming.fact env head :=
  congrArg (Fact.mk head.name) (List.map_congr_left fun _ hArg => hAgrees.name_eq (hScoped _ hArg))

theorem not_isVariable_fact (hAgrees : Agrees size names env) {head : Atom} (hScoped : head.WellScoped size) :
    ∀ arg ∈ (Environment.naming.fact env head).args, isVariable arg = false := by
  intro arg hArg
  obtain ⟨term, hTerm, rfl⟩ := List.mem_map.mp hArg
  exact hAgrees.not_isVariable_name (hScoped term hTerm)

open Interpreter

theorem value_eq (hAgrees : Agrees size names env) (state : Snapshot) :
    ∀ {expression : Expression}, expression.WellScoped size →
      value Naming.renaming names state expression = value Environment.naming env state expression
  | .number _, _ => rfl
  | .variable slot, hScoped =>
    congrArg (fun name => Outcome.judged (isGround name)) (hAgrees.visible slot hScoped)
  | .constant _, _ => rfl
  | .function head, hScoped => by
      rw [value, value, hAgrees.fact_eq hScoped]
  | .arithmetic op left right, hScoped => by
      rw [value, value, hAgrees.value_eq state hScoped.1, hAgrees.value_eq state hScoped.2]

theorem symbol?_eq (hAgrees : Agrees size names env) {expression : Expression}
    (hScoped : expression.WellScoped size) :
    symbol? Naming.renaming names expression = symbol? Environment.naming env expression := by
  cases expression with
  | «variable» slot => exact congrArg some (hAgrees.visible slot hScoped)
  | _ => rfl

theorem compare_eq (hAgrees : Agrees size names env) {left right : Expression} (hLeft : left.WellScoped size)
    (hRight : right.WellScoped size) (negated : Bool) (op : Comparison) (state : Snapshot) :
    Interpreter.compare Naming.renaming names negated op left right state =
      Interpreter.compare Environment.naming env negated op left right state := by
  rw [Interpreter.compare, Interpreter.compare, hAgrees.value_eq state hLeft, hAgrees.value_eq state hRight]
  simp only [compare?, equal?, hAgrees.symbol?_eq hLeft, hAgrees.symbol?_eq hRight]

end Agrees

/-- Two steps do the same to every snapshot whose facts are about objects, and such a snapshot remains one. -/
def Interpreter.SameOnGround (step other : Interpreter.Step α) : Prop :=
  ∀ state, state.Ground → step state = other state ∧ (other state).2.Ground

namespace Interpreter.SameOnGround

theorem pure (answer : α) : SameOnGround (pure answer) (pure answer) :=
  fun _ hGround => ⟨rfl, hGround⟩

theorem bind {step other : Interpreter.Step α} {next otherNext : α → Interpreter.Step β}
    (hStep : SameOnGround step other) (hNext : ∀ answer, SameOnGround (next answer) (otherNext answer)) :
    SameOnGround (step >>= next) (other >>= otherNext) := by
  intro state hGround
  obtain ⟨hSame, hAfter⟩ := hStep state hGround
  obtain ⟨hSameNext, hAfterNext⟩ := hNext (other state).1 (other state).2 hAfter
  constructor
  · show next (step state).1 (step state).2 = otherNext (other state).1 (other state).2
    rw [hSame, hSameNext]
  · exact hAfterNext

theorem atom (commit negated : Bool) {fact : Fact} (hFact : ∀ arg ∈ fact.args, isVariable arg = false) :
    SameOnGround (Interpreter.atom commit negated fact) (Interpreter.atom commit negated fact) := by
  intro state hGround
  refine ⟨rfl, ?_⟩
  cases commit with
  | false => exact hGround
  | true =>
      cases negated with
      | false => exact hGround.add hFact
      | true => exact hGround.remove

theorem update {size : Nat} {names : Term → String} {env : Environment} (hAgrees : Agrees size names env)
    {target : Atom} {amount : Expression} (hTarget : target.WellScoped size)
    (hAmount : amount.WellScoped size)
    (commit : Bool) (op : Update) :
    SameOnGround (Interpreter.update Naming.renaming commit names op target amount)
      (Interpreter.update Environment.naming commit env op target amount) := by
  intro state hGround
  have hOld : value Naming.renaming names state (.function target) =
      value Environment.naming env state (.function target) :=
    hAgrees.value_eq state hTarget
  constructor
  · rw [Interpreter.update, Interpreter.update, hOld, hAgrees.value_eq state hAmount, hAgrees.fact_eq hTarget]
  · rw [Interpreter.update]
    split
    · split
      · exact hGround
      · split
        · exact hGround
        · exact hGround
    · exact hGround

theorem firstTrue (attempt other : α → Interpreter.Step Outcome) {alternatives : List α}
    (hAttempt : ∀ alternative ∈ alternatives, SameOnGround (attempt alternative) (other alternative)) :
    SameOnGround (Interpreter.firstTrue attempt alternatives) (Interpreter.firstTrue other alternatives) := by
  induction alternatives with
  | nil => exact pure _
  | cons alternative rest ih =>
      rw [Interpreter.firstTrue, Interpreter.firstTrue]
      apply (hAttempt alternative List.mem_cons_self).bind
      intro outcome
      split
      · exact pure _
      · exact ih fun later hLater => hAttempt later (List.mem_cons_of_mem _ hLater)

end Interpreter.SameOnGround

namespace Interpreter

mutual

/-- Interpreting a condition with the names of a renamed tree is interpreting it in an environment that
agrees. -/
theorem walk_renaming (commit : Bool) :
    ∀ (condition : Condition) (size : Nat) (names : Term → String) (env : Environment) (negated : Bool),
      condition.WellScoped size → Agrees size names env →
        SameOnGround (walk Naming.renaming commit names negated condition)
          (walk Environment.naming commit env negated condition)
  | .conjunction parts, size, names, env, negated, hScoped, hAgrees => by
      rw [walk, walk]
      exact (walkParts_renaming commit parts size names env negated hScoped hAgrees).bind fun _ => .pure _
  | .disjunction parts, size, names, env, negated, hScoped, hAgrees => by
      rw [walk, walk]
      exact (walkParts_renaming commit parts size names env negated hScoped hAgrees).bind fun _ => .pure _
  | .negation part, size, names, env, negated, hScoped, hAgrees => by
      rw [walk, walk]
      exact walk_renaming commit part size names env (!negated) hScoped hAgrees
  | .atom head, size, names, env, negated, hScoped, hAgrees => by
      rw [walk, walk, hAgrees.fact_eq hScoped]
      exact .atom commit negated (hAgrees.not_isVariable_fact hScoped)
  | .comparison op left right, size, names, env, negated, hScoped, hAgrees => by
      rw [walk, walk]
      intro state hGround
      have hSame := hAgrees.compare_eq hScoped.1 hScoped.2 negated op state
      exact ⟨congrArg (fun outcome => (outcome, state)) hSame, hGround⟩
  | .update op target amount, size, names, env, negated, hScoped, hAgrees => by
      rw [walk, walk]
      exact .update hAgrees hScoped.1 hScoped.2 commit op
  | .quantified bindings slots none, size, names, env, negated, hScoped, hAgrees => by
      rw [walk, walk, walkBody, walkBody]
      exact .pure _
  | .quantified bindings slots (some body), size, names, env, negated, hScoped, hAgrees => by
      obtain ⟨hSlots, hBody⟩ := hScoped
      rw [walk, walk, walkBody, walkBody]
      intro state hGround
      -- The choices are made from the objects of this snapshot, whatever the attempts do to it.
      have hAttempts : ∀ chosen ∈ choices (slots.map fun _ => state.objects),
          SameOnGround (walk Naming.renaming commit (Naming.renaming.bind names slots chosen) negated body)
            (walk Environment.naming commit (Environment.naming.bind env slots chosen) negated body) := by
        intro chosen hMem
        obtain ⟨hLength, hObjects⟩ := of_mem_choices hMem
        have hInner : Agrees (size + bindings.length) (Naming.renaming.bind names slots chosen)
            (env.bind slots chosen) := by
          rw [hSlots] at hLength ⊢
          rw [List.length_range'] at hLength
          exact hAgrees.bind hLength.symm fun name hName => hGround.of_mem_objects (hObjects name hName)
        exact walk_renaming commit body _ _ _ negated hBody hInner
      exact SameOnGround.firstTrue _ _ hAttempts state hGround

theorem walkParts_renaming (commit : Bool) :
    ∀ (parts : List Condition) (size : Nat) (names : Term → String) (env : Environment) (negated : Bool),
      Condition.PartsWellScoped size parts → Agrees size names env →
        SameOnGround (walkParts Naming.renaming commit names negated parts)
          (walkParts Environment.naming commit env negated parts)
  | [], size, names, env, negated, _, _ => .pure _
  | part :: parts, size, names, env, negated, hScoped, hAgrees => by
      have hPart := walk_renaming commit part size names env negated hScoped.1 hAgrees
      have hParts := walkParts_renaming commit parts size names env negated hScoped.2 hAgrees
      rw [walkParts, walkParts]
      exact hPart.bind fun _ => hParts.bind fun _ => .pure _

end

theorem interpret_renaming {size : Nat} {names : Term → String} {env : Environment}
    {condition : Option Condition}
    (hScoped : Condition.BodyWellScoped size condition) (hAgrees : Agrees size names env) (commit : Bool) :
    SameOnGround (interpret Naming.renaming commit names condition)
      (interpret Environment.naming commit env condition) := by
  cases condition with
  | none => exact .pure _
  | some condition => exact walk_renaming commit condition size names env false hScoped hAgrees

end Interpreter

/-! ## Evaluation in an environment -/

/-- The environment in which the first slots have given objects. -/
def Environment.ofObjects (objects : List String) : Environment := fun slot =>
  objects[slot]?.getD ""

theorem agrees_lowered {objects : List String} (hObjects : ∀ name ∈ objects, isVariable name = false) :
    Agrees objects.length (Term.lowered objects) (Environment.ofObjects objects) where
  visible slot hSlot := by
    show (objects[slot]?).getD _ = (objects[slot]?).getD _
    rw [List.getElem?_eq_getElem hSlot]
    rfl
  bound slot hSlot := by
    rw [Environment.ofObjects, List.getElem?_eq_getElem hSlot]
    exact hObjects _ (List.getElem_mem hSlot)
  free slot hSlot := by
    show (objects[slot]?).getD _ = _
    rw [List.getElem?_eq_none hSlot]
    rfl
  word _ _ := rfl

/-- Evaluating the tree of a condition that was read, with objects for the variables of its scope, is
interpreting the condition in the environment of these objects: the outcome and the snapshot afterwards are
the same. -/
theorem evaluate_ofCondition_eq_interpret {text : String} {scope : Scope} {condition : Option Condition}
    (hText : Condition.ofText text scope = .ok condition) {objects : List String}
    (hLength : objects.length = scope.size) (hObjects : ∀ name ∈ objects, isGround name = true)
    {observed : Observed Snapshot}
    (hFacts : ∀ fact ∈ observed.state.facts, ∀ arg ∈ fact.args, isGround arg = true) (commit : Bool) :
    Snapshot.Run.result (evaluate commit (Tree.ofCondition condition objects) 0 false) observed =
      Interpreter.interpret Environment.naming commit (Environment.ofObjects objects) condition
        observed.state := by
  have hScoped := Condition.wellScoped_of_ofText hText
  have hAgrees : Agrees scope.size (Term.lowered objects) (Environment.ofObjects objects) := by
    rw [← hLength]
    exact agrees_lowered fun name hName => not_isVariable_of_isGround (hObjects name hName)
  have hGround : observed.state.Ground := fun fact hFact arg hArg =>
    not_isVariable_of_isGround (hFacts fact hFact arg hArg)
  have hShown := shows_evaluate commit hScoped objects observed
  rwa [(Interpreter.interpret_renaming hScoped hAgrees commit observed.state hGround).1] at hShown

/-- Here an effect under a quantifier and a negation is made true. -/
theorem evaluate_ofCondition_eq_interpret_removal :
    let condition := Condition.quantified [⟨"?x", "object"⟩] [1]
      (some (.negation (.atom ⟨"at", [.slot 1, .slot 0]⟩)))
    let state : Snapshot := ⟨[⟨"at", ["ann", "hall"]⟩, ⟨"free", ["hall"]⟩], []⟩
    Condition.ofText "(exists (?x) (not (at ?x ?y)))" ⟨[⟨"?y", "object"⟩]⟩ = .ok (some condition) ∧
      (∀ name ∈ ["hall"], isGround name = true) ∧
      (∀ fact ∈ state.facts, ∀ arg ∈ fact.args, isGround arg = true) ∧
      Snapshot.Run.result (evaluate true (Tree.ofCondition (some condition) ["hall"]) 0 false)
          (.start state) =
        Interpreter.interpret Environment.naming true (Environment.ofObjects ["hall"]) (some condition)
          state := by
  intro condition state
  have hWords : (Token.ofText "(exists (?x) (not (at ?x ?y)))").map Token.text =
      ["(", "exists", "(", "?x", ")", "(", "not", "(", "at", "?x", "?y", ")", ")", ")"] := by
    decide +kernel
  have hAtom : Condition.Denotes (Scope.extend ⟨[⟨"?y", "object"⟩]⟩ [⟨"?x", "object"⟩])
      ["(", "at", "?x", "?y", ")"] (some (.atom ⟨"at", [.slot 1, .slot 0]⟩)) :=
    .atom (by decide +kernel) ⟨by decide, by decide⟩
      (.cons (.slot (by decide) (by decide)) (.cons (.slot (by decide) (by decide)) .nil))
  have hText : Condition.ofText "(exists (?x) (not (at ?x ?y)))" ⟨[⟨"?y", "object"⟩]⟩ =
      .ok (some condition) := by
    rw [Condition.ofText_eq_ok_iff, hWords]
    have hNegation : Condition.Denotes _ ["(", "not", "(", "at", "?x", "?y", ")", ")"] _ :=
      .negation (by decide +kernel) hAtom
    have hDeclares : Declares ["?x"] [⟨"?x", "object"⟩] := .untyped (by decide)
    exact .quantified (by decide +kernel) hDeclares (by decide) hNegation
  have hObjects : ∀ name ∈ ["hall"], isGround name = true := by decide
  have hFacts : ∀ fact ∈ state.facts, ∀ arg ∈ fact.args, isGround arg = true := by decide
  exact ⟨hText, hObjects, hFacts, evaluate_ofCondition_eq_interpret hText rfl hObjects hFacts true⟩

end PlanLogic
