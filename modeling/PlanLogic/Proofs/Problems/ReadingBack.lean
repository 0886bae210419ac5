import PlanLogic.Proofs.Evaluation.Checking
import PlanLogic.Proofs.Problems.Clearing
import PlanLogic.Proofs.Problems.Simulation

/-!
# Reading the state of a problem back

A problem stores facts as their texts and reads them back as a document is read.  Nothing checks that the names of
a fact are names that its text can hold when it is added: neither the names of declared objects nor those that are
put in for the variables of a condition.  So a problem can be read back after any operations if all names are such
names, and one fact whose text denotes none is enough that it cannot.
-/

namespace PlanLogic
namespace Problem

/-- What can be done to the state of a problem. -/
inductive Operation where
  | declare (object : Instance)
  | add (fact : Fact)
  | remove (fact : Fact)
  | write (assignment : Assignment)
  | load (state : Snapshot)
  | evaluate (commit : Bool) (tree : Tree)
  | clear

/-- The server after a change, or as it is if it cannot be reached. -/
def changed (problem : Problem) (server : Server) (step : Database → Database) : Server :=
  match server.change problem.database step with
  | .ok next => next
  | .error _ => server

/-- The server after an operation on a problem. -/
def perform (problem : Problem) (server : Server) : Operation → Server
  | .declare object => problem.changed server (problem.declare object)
  | .add fact => problem.changed server fun database => (problem.add fact database).2
  | .remove fact => problem.changed server (problem.remove fact)
  | .write assignment => problem.changed server (problem.write assignment)
  | .load state => problem.changed server (problem.load state)
  | .evaluate commit tree => (problem.evaluated server commit tree).2.state
  | .clear => problem.changed server problem.clear

/-- The server after operations in order. -/
def performAll (problem : Problem) (server : Server) (operations : List Operation) : Server :=
  operations.foldl problem.perform server

/-- An operation brings in only names that the text of a fact can hold. -/
def Operation.Named : Operation → Prop
  | .declare object => IsName object.name
  | .add fact => fact.Writable
  | .remove _ => True
  | .write assignment => assignment.head.Writable
  | .load state => ∃ text, Snapshot.ofText text = .ok state
  | .evaluate _ tree => tree.Compiled
  | .clear => True

/-- A problem can be read back: as a snapshot that holds those facts that a document can state and the problem
holds. -/
def ReadsBack (problem : Problem) (database : Database) : Prop :=
  ∃ state, problem.snapshot database = .ok state ∧
    ∀ fact, state.holds fact = true ↔ fact.Writable ∧ problem.holds database fact = true

variable {problem : Problem} {database : Database} {state : Snapshot}

/-! ## What is stored stays readable -/

theorem Stores.readsBack (hStores : problem.Stores database state) : problem.ReadsBack database := by
  refine ⟨_, hStores.snapshot_eq, fun fact => ?_⟩
  rw [Snapshot.holds_iff, (perm_sortedBy Fact.key state.facts).mem_iff, ← Snapshot.holds_iff]
  constructor
  · intro hHolds
    have hFact := hStores.sound.facts_writable fact (Snapshot.holds_iff.mp hHolds)
    exact ⟨hFact, (hStores.holds_eq hFact.spelled).trans hHolds⟩
  · rintro ⟨hFact, hHolds⟩
    exact (hStores.holds_eq hFact.spelled).symm.trans hHolds

/-- Removing any fact removes those with its text, so no more than one. -/
theorem Stores.discard (hStores : problem.Stores database state) (fact : Fact) :
    problem.Stores (problem.remove fact database)
      { state with facts := state.facts.filter fun other => other.key != fact.key } := by
  have hSound := hStores.sound
  refine hStores.change_facts (changesOnly_remove fact) ?_ rfl ⟨hSound.facts_nodup.filter _, hSound.heads_nodup,
    fun other hMem => hSound.facts_writable other (List.mem_of_mem_filter hMem), hSound.heads_writable⟩
  refine (Database.members_removeMember_self _ _ _).trans ?_
  rw [hStores.facts, List.filter_map]
  rfl

/-- A problem under a fixed namespace or the default one stores what a sound snapshot holds, and the names of the
declared objects are names that the text of a fact can hold. -/
structure Orderly (problem : Problem) (database : Database) : Prop where
  inactive : database.get? activeKey = none
  declared : ∀ field ∈ database.fields (problem.instancesKey database), IsName field.1
  stored : ∃ state, problem.Stores database state

namespace Orderly

theorem empty (problem : Problem) : problem.Orderly [] where
  inactive := rfl
  declared _ hMem := absurd hMem List.not_mem_nil
  stored := ⟨Snapshot.empty, .empty fun _ _ => rfl⟩

variable (hOrderly : problem.Orderly database)

include hOrderly

/-- A change to a part of the problem other than its declared objects. -/
theorem change {part : String} {changed : Database} (hChange : problem.ChangesOnly part database changed)
    (hPart : part.toList.getLast? = some 's') (hOther : "instances" ≠ part)
    (hStored : ∃ state, problem.Stores changed state) : problem.Orderly changed where
  inactive := (hChange.active hPart).trans hOrderly.inactive
  declared := by
    have hFields : changed.fields (problem.instancesKey changed) = database.fields (problem.instancesKey database) :=
      hChange.fields_eq hPart hOther
    rw [hFields]
    exact hOrderly.declared
  stored := hStored

theorem insert {fact : Fact} (hFact : fact.Writable) : problem.Orderly (problem.insert fact database) := by
  obtain ⟨state, hStores⟩ := hOrderly.stored
  exact hOrderly.change (changesOnly_insert fact) (by decide) (by decide) ⟨_, hStores.insert hFact⟩

theorem add {fact : Fact} (hFact : fact.Writable) : problem.Orderly (problem.add fact database).2 := by
  rw [Problem.add]
  split
  · exact hOrderly.insert hFact
  · exact hOrderly

theorem remove (fact : Fact) : problem.Orderly (problem.remove fact database) := by
  obtain ⟨state, hStores⟩ := hOrderly.stored
  exact hOrderly.change (changesOnly_remove fact) (by decide) (by decide) ⟨_, hStores.discard fact⟩

theorem write {assignment : Assignment} (hHead : assignment.head.Writable) :
    problem.Orderly (problem.write assignment database) := by
  obtain ⟨state, hStores⟩ := hOrderly.stored
  exact hOrderly.change (changesOnly_write assignment) (by decide) (by decide) ⟨_, hStores.write hHead⟩

/-- Declaring an object changes only the declared objects. -/
theorem declare {object : Instance} (hObject : IsName object.name) :
    problem.Orderly (problem.declare object database) := by
  have hChange : problem.ChangesOnly "instances" database (problem.declare object database) :=
    changesOnly_declare object
  obtain ⟨state, hStores⟩ := hOrderly.stored
  refine ⟨(hChange.active (by decide)).trans hOrderly.inactive, ?_, state, ?_, ?_, hStores.sound⟩
  · intro field hField
    rw [instancesKey, hChange.name_eq (by decide)] at hField
    have hFields : field ∈ Store.put object.name object.type (database.fields (problem.instancesKey database)) :=
      (Database.fields_setField_self _ _ _ _) ▸ hField
    rcases Store.mem_put hFields with rfl | hOld
    · exact hObject
    · exact hOrderly.declared field hOld
  · exact (hChange.members_eq (by decide) (by decide)).trans hStores.facts
  · exact (hChange.fields_eq (by decide) (by decide)).trans hStores.values

/-- Changes in order. -/
theorem foldl {change : Database → α → Database} {xs : List α}
    (hChange : ∀ x ∈ xs, ∀ {database : Database}, problem.Orderly database → problem.Orderly (change database x)) :
    problem.Orderly (xs.foldl change database) := by
  induction xs generalizing database with
  | nil => exact hOrderly
  | cons x xs ih =>
      exact ih (hChange x List.mem_cons_self hOrderly) fun other hMem => hChange other (List.mem_cons_of_mem x hMem)

/-- What a document describes is stored on top of what is there. -/
theorem load (hSound : state.Sound) : problem.Orderly (problem.load state database) :=
  (hOrderly.foldl fun fact hMem _ hBefore => hBefore.insert (hSound.facts_writable fact hMem)).foldl
    fun _ hMem _ hBefore => hBefore.write (hSound.heads_writable _ (List.mem_map_of_mem hMem))

theorem clear : problem.Orderly (problem.clear database) := by
  have hInactive : (problem.clear database).get? activeKey = none := by
    rw [get?_clear]
    split
    · rfl
    · exact hOrderly.inactive
  have hName : problem.name (problem.clear database) = problem.name database :=
    name_eq_of_get?_eq (hInactive.trans hOrderly.inactive.symm)
  have hGone (part : String) : (problem.clear database).get? (keyOf (problem.name (problem.clear database)) part) =
      none := by
    rw [hName]
    exact get?_clear_stemOf problem database part
  refine ⟨hInactive, fun field hField => ?_, Snapshot.empty, .empty fun part _ => hGone part⟩
  rw [instancesKey, Database.fields_eq_nil_of_get?_eq_none (hGone "instances")] at hField
  exact absurd hField List.not_mem_nil

/-- The objects that a quantifier chooses from. -/
theorem isName_of_mem_objects {name : String} (hName : name ∈ problem.objects database) : IsName name := by
  rw [objects, instances] at hName
  obtain ⟨object, hObject, rfl⟩ := List.mem_map.mp hName
  obtain ⟨field, hField, rfl⟩ := List.mem_map.mp ((perm_sortedBy _ _).mem_iff.mp hObject)
  exact hOrderly.declared field hField

/-- A head whose text has a number is one that a document can state. -/
theorem writable_of_isSome_value? {head : Fact} (hHead : head.Spelled)
    (hFound : (problem.value? database head.key).isSome = true) : head.Writable := by
  obtain ⟨state, hStores⟩ := hOrderly.stored
  rw [hStores.value?_eq] at hFound
  exact hStores.sound.heads_writable head (mem_heads_of_isSome_value? hStores.sound hHead hFound)

end Orderly

/-! ## Operations -/

/-- A server on which a problem is orderly. -/
def OrderlyOn (problem : Problem) (server : Server) : Prop :=
  problem.Orderly (server.store.database problem.database)

/-- A change that keeps a problem orderly, if the server can be reached. -/
theorem OrderlyOn.of_change {server next : Server} (hOrderly : problem.OrderlyOn server)
    {step : Database → Database} (hStep : ∀ {database}, problem.Orderly database → problem.Orderly (step database))
    (hChange : server.change problem.database step = .ok next) : problem.OrderlyOn next := by
  rw [Server.change] at hChange
  split at hChange
  · obtain rfl := Except.ok.inj hChange
    rw [OrderlyOn, Store.database_onDatabase_self]
    exact hStep hOrderly
  · exact absurd hChange (by simp)

theorem OrderlyOn.changed {server : Server} (hOrderly : problem.OrderlyOn server) {step : Database → Database}
    (hStep : ∀ {database}, problem.Orderly database → problem.Orderly (step database)) :
    problem.OrderlyOn (problem.changed server step) := by
  rw [Problem.changed]
  split
  · next hChange => exact hOrderly.of_change hStep hChange
  · exact hOrderly

/-- A change during an evaluation. -/
theorem keeps_change_true {step : Problem → Database → Database}
    (hStep : ∀ {database}, problem.Orderly database → problem.Orderly (step problem database)) :
    problem.Keeps problem.OrderlyOn (fun _ => True) (do Run.change step; return true) :=
  (Keeps.change fun hOrderly => hOrderly.of_change hStep).bind fun _ _ => .pure trivial

/-- Evaluating a tree that names only what a document can state keeps a problem orderly. -/
def ordering (problem : Problem) (commit : Bool) : Coupling commit Run Run where
  vocabulary := .writable True
  closed := Vocabulary.closed_writable True
  known head := head.Writable
  Coupled post run _ := problem.Keeps problem.OrderlyOn post run
  pure := .pure
  bind := .bind
  weaken := .weaken
  holds _ := .ask fun _ _ => trivial
  add _ hFact := .add fun hOrderly _ => hOrderly.of_change fun hBefore => hBefore.insert hFact
  remove _ _ := keeps_change_true fun hBefore => hBefore.remove _
  -- A head is written only if it has a number, so not under a name that is refused.
  value? hHead := .ask fun _ hOrderly hFound => hOrderly.writable_of_isSome_value? hHead hFound
  write _ _ hKnown := keeps_change_true fun hBefore => hBefore.write hKnown
  objects _ := .ask fun _ hOrderly _ hName => hOrderly.isName_of_mem_objects hName
  report _ hState := .ok trivial hState

theorem OrderlyOn.evaluated {server : Server} (hOrderly : problem.OrderlyOn server) {tree : Tree}
    (hTree : tree.Compiled) (commit : Bool) : problem.OrderlyOn (problem.evaluated server commit tree).2.state := by
  have hKeeps : problem.Keeps problem.OrderlyOn (fun _ => True) (PlanLogic.evaluate commit tree 0 false) :=
    (problem.ordering commit).evaluate (Vocabulary.covers_of_compiled hTree) 0 false
  rw [evaluated_state]
  exact hKeeps.seen hOrderly

/-- One operation. -/
theorem OrderlyOn.perform {server : Server} (hOrderly : problem.OrderlyOn server) {operation : Operation}
    (hNamed : operation.Named) : problem.OrderlyOn (problem.perform server operation) := by
  cases operation with
  | declare object => exact hOrderly.changed fun hBefore => hBefore.declare hNamed
  | add fact => exact hOrderly.changed fun hBefore => hBefore.add hNamed
  | remove fact => exact hOrderly.changed fun hBefore => hBefore.remove fact
  | write assignment => exact hOrderly.changed fun hBefore => hBefore.write hNamed
  | load state =>
      obtain ⟨text, hText⟩ := hNamed
      exact hOrderly.changed fun hBefore => hBefore.load (Snapshot.sound_of_ofText hText)
  | evaluate commit tree => exact hOrderly.evaluated hNamed commit
  | clear => exact hOrderly.changed fun hBefore => hBefore.clear

/-- Operations in order. -/
theorem OrderlyOn.performAll {server : Server} (hOrderly : problem.OrderlyOn server) {operations : List Operation}
    (hNamed : ∀ operation ∈ operations, operation.Named) :
    problem.OrderlyOn (problem.performAll server operations) := by
  induction operations generalizing server with
  | nil => exact hOrderly
  | cons operation operations ih =>
      obtain ⟨hFirst, hRest⟩ := List.forall_mem_cons.mp hNamed
      exact ih (hOrderly.perform hFirst) hRest

/-! ## What cannot be read back -/

theorem exists_mapM_eq_ok_iff {read : α → Except ε β} {xs : List α} :
    (∃ ys, xs.mapM read = .ok ys) ↔ ∀ x ∈ xs, ∃ y, read x = .ok y := by
  induction xs with
  | nil => simp [pure, Except.pure]
  | cons x xs ih =>
      rw [List.mapM_cons, List.forall_mem_cons, ← ih]
      cases read x with
      | error cause => simp [bind, Except.bind]
      | ok y => cases xs.mapM read <;> simp [bind, Except.bind, pure, Except.pure]

/-- A problem can be read exactly if every text that it stores can. -/
theorem exists_snapshot_iff : (∃ state, problem.snapshot database = .ok state) ↔
    (∀ text ∈ database.members (problem.factsKey database), ∃ fact, Fact.ofText text = .ok fact) ∧
      ∀ field ∈ database.fields (problem.valuesKey database), ∃ assignment, readField field = .ok assignment := by
  rw [← exists_mapM_eq_ok_iff, ← exists_mapM_eq_ok_iff, snapshot, facts, assignments]
  cases (database.members (problem.factsKey database)).mapM Fact.ofText with
  | error cause => simp [Functor.map, Except.map]
  | ok found =>
      cases (database.fields (problem.valuesKey database)).mapM readField <;> simp [Functor.map, Except.map]

theorem mem_members_insert_iff {fact : Fact} {text : String} :
    text ∈ (problem.insert fact database).members (problem.factsKey (problem.insert fact database)) ↔
      text ∈ database.members (problem.factsKey database) ∨ text = fact.key := by
  have hMembers := Database.members_addMember_self database (problem.factsKey database) fact.key
  rw [factsKey, (changesOnly_insert fact).name_eq (by decide)]
  show text ∈ (database.addMember (problem.factsKey database) fact.key).members (problem.factsKey database) ↔ _
  rw [hMembers]
  split
  · next hOld =>
      rw [List.contains_iff_mem] at hOld
      exact ⟨Or.inl, fun hText => hText.elim id fun hSame => hSame ▸ hOld⟩
  · rw [List.mem_append, List.mem_singleton]

/-- One more fact can be read back exactly if its text can. -/
theorem exists_snapshot_insert_iff (fact : Fact) :
    (∃ state, problem.snapshot (problem.insert fact database) = .ok state) ↔
      (∃ state, problem.snapshot database = .ok state) ∧ ∃ other, Fact.ofText fact.key = .ok other := by
  have hFields : (problem.insert fact database).fields (problem.valuesKey (problem.insert fact database)) =
      database.fields (problem.valuesKey database) :=
    (changesOnly_insert fact).fields_eq (by decide) (by decide)
  rw [exists_snapshot_iff, exists_snapshot_iff, hFields]
  simp only [mem_members_insert_iff, or_imp, forall_and, forall_eq]
  exact and_right_comm

/-- A problem can be read back after any operations on an empty database that bring in only names that the text of
a fact can hold.  Whatever was done before, one more fact can be read back exactly if its text denotes a fact. -/
theorem readsBack_performAll (problem : Problem) :
    (∀ {server : Server}, server.store.database problem.database = [] → ∀ {operations : List Operation},
      (∀ operation ∈ operations, operation.Named) →
        problem.ReadsBack ((problem.performAll server operations).store.database problem.database)) ∧
      ∀ (database : Database) (fact : Fact),
        (∃ state, problem.snapshot (problem.insert fact database) = .ok state) ↔
          (∃ state, problem.snapshot database = .ok state) ∧ ∃ other, Fact.ofText fact.key = .ok other := by
  refine ⟨fun {server} hEmpty {operations} hNamed => ?_, fun database fact => exists_snapshot_insert_iff fact⟩
  have hStart : problem.OrderlyOn server := by
    rw [OrderlyOn, hEmpty]
    exact .empty problem
  obtain ⟨state, hStores⟩ := (hStart.performAll hNamed).stored
  exact hStores.readsBack

/-- Here every operation is done: objects are declared, a document is loaded, an effect is made true of all objects,
and a fact is removed that no document can state. -/
theorem readsBack_performAll_declared :
    let condition := Condition.quantified [⟨"?x", "object"⟩] [1] (some (.atom ⟨"r", [.slot 1, .slot 0]⟩))
    let operations : List Operation := [.add ⟨"old", []⟩, .clear, .declare ⟨"a", "object"⟩, .declare ⟨"b", "place"⟩,
      .load ⟨[⟨"p", ["a"]⟩], [⟨⟨"f", []⟩, 1⟩]⟩, .evaluate true (Tree.ofCondition (some condition) ["b"]),
      .remove ⟨"p", ["a)"]⟩, .write ⟨⟨"g", ["b"]⟩, 2⟩]
    let problem : Problem := ⟨0, none⟩
    Server.empty.store.database problem.database = [] ∧ (∀ operation ∈ operations, operation.Named) ∧
      problem.ReadsBack ((problem.performAll .empty operations).store.database problem.database) := by
  intro condition operations problem
  have hName {name : String} (hSome : name.toList ≠ []) (hChars : name.toList.all Token.isSymbolChar = true) :
      IsName name :=
    ⟨hSome, List.all_eq_true.mp hChars⟩
  have hA : IsName "a" := hName (by decide) (by decide +kernel)
  have hB : IsName "b" := hName (by decide) (by decide +kernel)
  have hOld : (Fact.mk "old" []).Writable :=
    ⟨⟨hName (by decide) (by decide +kernel), fun _ hMem => absurd hMem List.not_mem_nil⟩, by decide⟩
  have hHead : (Fact.mk "g" ["b"]).Writable :=
    ⟨⟨hName (by decide) (by decide +kernel), List.forall_mem_singleton.mpr hB⟩, by decide⟩
  have hState : Snapshot.ofText "(p a)\n(= (f) 1)" = .ok ⟨[⟨"p", ["a"]⟩], [⟨⟨"f", []⟩, 1⟩]⟩ := by decide +kernel
  have hWords : (Token.ofText "(exists (?x) (r ?x ?y))").map Token.text =
      ["(", "exists", "(", "?x", ")", "(", "r", "?x", "?y", ")", ")"] := by
    decide +kernel
  have hAtom : Condition.Denotes (Scope.extend ⟨[⟨"?y", "object"⟩]⟩ [⟨"?x", "object"⟩])
      ["(", "r", "?x", "?y", ")"] (some (.atom ⟨"r", [.slot 1, .slot 0]⟩)) :=
    .atom (by decide +kernel) ⟨by decide, by decide⟩
      (.cons (.slot (by decide) (by decide)) (.cons (.slot (by decide) (by decide)) .nil))
  have hDeclares : Declares ["?x"] [⟨"?x", "object"⟩] := .untyped (by decide)
  have hText : Condition.ofText "(exists (?x) (r ?x ?y))" ⟨[⟨"?y", "object"⟩]⟩ = .ok (some condition) := by
    rw [Condition.ofText_eq_ok_iff, hWords]
    exact .quantified (by decide +kernel) hDeclares (by decide) hAtom
  have hTree : (Tree.ofCondition (some condition) ["b"]).Compiled := .ofText hText (List.forall_mem_singleton.mpr hB)
  have hNamed : ∀ operation ∈ operations, operation.Named := by
    simp only [operations, List.forall_mem_cons]
    exact ⟨hOld, trivial, hA, hB, ⟨_, hState⟩, hTree, trivial, hHead, fun _ hMem => absurd hMem List.not_mem_nil⟩
  exact ⟨rfl, hNamed, (readsBack_performAll problem).1 rfl hNamed⟩

/-- An effect with a parenthesis in a name that is put in for a variable is made true with success, and then the
problem cannot be read back. -/
theorem readsBack_performAll_parenthesis :
    let effect := Tree.ofCondition (some (.atom ⟨"p", [.slot 0]⟩)) ["a)"]
    let problem : Problem := ⟨0, none⟩
    let server := problem.performAll .empty [.evaluate true effect]
    Condition.ofText "(p ?x)" ⟨[⟨"?x", "object"⟩]⟩ = .ok (some (.atom ⟨"p", [.slot 0]⟩)) ∧
      (problem.evaluated .empty true effect).1 = .ok ⟨true, true, 0⟩ ∧
      problem.snapshot (server.store.database problem.database) = .error (.notFact "(p a))") ∧
      ¬ problem.ReadsBack (server.store.database problem.database) := by
  intro effect problem server
  have hWords : (Token.ofText "(p ?x)").map Token.text = ["(", "p", "?x", ")"] := by decide +kernel
  have hText : Condition.ofText "(p ?x)" ⟨[⟨"?x", "object"⟩]⟩ = .ok (some (.atom ⟨"p", [.slot 0]⟩)) := by
    rw [Condition.ofText_eq_ok_iff, hWords]
    exact .atom (by decide +kernel) ⟨by decide, by decide⟩ (.cons (.slot (by decide) (by decide)) .nil)
  have hSnapshot : problem.snapshot (server.store.database problem.database) = .error (.notFact "(p a))") := by
    rfl
  refine ⟨hText, rfl, hSnapshot, ?_⟩
  rintro ⟨state, hState, -⟩
  rw [hSnapshot] at hState
  exact absurd hState (by simp)

end Problem
end PlanLogic
