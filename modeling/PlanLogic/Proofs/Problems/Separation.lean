import PlanLogic.Proofs.Problems.Acts

/-!
# Namespaces do not interfere

The key of a part of a namespace ends with a colon and the part, and no part has a colon.  So a key determines its
namespace and its part, whatever colons the namespace has and however it ends.  What names the active namespace
is kept under a key of that form too, but its part is no part of the state of a problem.  Hence what is done
with a problem leaves the problems under all other namespaces as they are, and a key always has values of the kind
that its part has.

Clearing is left out.  Its pattern can match keys of other namespaces.
-/

namespace PlanLogic

/-- What happens on a server: a namespace becomes the active one of a database, or something is done with a
problem. -/
inductive Event where
  | activate (number : Int) (name : String)
  | act (problem : Problem) (deed : Problem.Act)

/-- The event clears a namespace. -/
def Event.clears : Event → Prop
  | .activate _ _ => False
  | .act _ deed => deed = .perform .clear

namespace Server

/-- The server after an event. -/
def after (server : Server) : Event → Server
  | .activate number name => Problem.changed ⟨number, none⟩ server fun database => Problem.activate database name
  | .act problem deed => problem.act server deed

/-- The server after events in order. -/
def afterAll (server : Server) (events : List Event) : Server :=
  events.foldl after server

end Server

/-! ## Kinds of values -/

namespace StoredValue

theorem exists_text {value : StoredValue} (hKind : value.kind = .text) : ∃ name, value = .text name := by
  cases value with
  | text name => exact ⟨name, rfl⟩
  | _ => exact absurd hKind (by simp [kind])

theorem exists_set {value : StoredValue} (hKind : value.kind = .set) : ∃ members, value = .set members := by
  cases value with
  | set members => exact ⟨members, rfl⟩
  | _ => exact absurd hKind (by simp [kind])

theorem exists_table {value : StoredValue} (hKind : value.kind = .table) : ∃ fields, value = .table fields := by
  cases value with
  | table fields => exact ⟨fields, rfl⟩
  | _ => exact absurd hKind (by simp [kind])

end StoredValue

namespace Database

theorem kind_addMember {database : Database} {key member : String} {value : StoredValue}
    (hValue : (database.addMember key member).get? key = some value) :
    database.get? key = some value ∨ value.kind = .set := by
  rw [addMember] at hValue
  split at hValue
  · exact Or.inl hValue
  · rw [get?_set_self] at hValue
    obtain rfl := Option.some.inj hValue
    exact Or.inr rfl

theorem kind_removeMember {database : Database} {key member : String} {value : StoredValue}
    (hValue : (database.removeMember key member).get? key = some value) :
    database.get? key = some value ∨ value.kind = .set := by
  rw [removeMember] at hValue
  split at hValue
  · dsimp only at hValue
    split at hValue
    · rw [get?_delete_self] at hValue
      exact absurd hValue (by simp)
    · rw [get?_set_self] at hValue
      obtain rfl := Option.some.inj hValue
      exact Or.inr rfl
  · exact Or.inl hValue

theorem kind_setField {database : Database} {key field text : String} {value : StoredValue}
    (hValue : (database.setField key field text).get? key = some value) : value.kind = .table := by
  rw [setField, get?_set_self] at hValue
  obtain rfl := Option.some.inj hValue
  rfl

end Database

namespace Problem

/-- The kinds of values that keys are used with. -/
inductive UsedAs : String → StoredKind → Prop
  | active : UsedAs activeKey .text
  | instances (name : String) : UsedAs (keyOf name "instances") .table
  | facts (name : String) : UsedAs (keyOf name "predicates") .set
  | values (name : String) : UsedAs (keyOf name "functions") .table

/-- What is kept under the keys that a problem looks up is of the kind that it looks for: a text under the key of the
active namespace, tables of objects and of numbers, and a set of facts. -/
structure FindsKinds (problem : Problem) (database : Database) : Prop where
  active : ∀ value, database.get? activeKey = some value → ∃ name, value = .text name
  instances : ∀ value, database.get? (problem.instancesKey database) = some value → ∃ fields, value = .table fields
  facts : ∀ value, database.get? (problem.factsKey database) = some value → ∃ members, value = .set members
  values : ∀ value, database.get? (problem.valuesKey database) = some value → ∃ fields, value = .table fields

/-- A problem has the same objects, facts and numbers in two databases. -/
structure SameState (problem : Problem) (database other : Database) : Prop where
  instances : problem.instances other = problem.instances database
  facts : problem.facts other = problem.facts database
  assignments : problem.assignments other = problem.assignments database

/-! ## Keys -/

/-- The last separator of a list cuts it in only one way. -/
theorem append_cons_injective {separator : α} {before after otherBefore otherAfter : List α}
    (hAfter : separator ∉ after) (hOther : separator ∉ otherAfter)
    (hSame : before ++ separator :: after = otherBefore ++ separator :: otherAfter) :
    before = otherBefore ∧ after = otherAfter := by
  -- One of the two begins with the other, and what it has more would have the other separator in it.
  rcases List.append_eq_append_iff.mp hSame with ⟨middle, hBefore, hRest⟩ | ⟨middle, hBefore, hRest⟩
  · cases middle with
    | nil => exact ⟨by simpa using hBefore.symm, (List.cons.inj hRest).2⟩
    | cons first middle =>
        obtain ⟨-, rfl⟩ := List.cons.inj hRest
        exact absurd (List.mem_append_right middle List.mem_cons_self) hAfter
  · cases middle with
    | nil => exact ⟨by simpa using hBefore, (List.cons.inj hRest).2.symm⟩
    | cons first middle =>
        obtain ⟨-, rfl⟩ := List.cons.inj hRest
        exact absurd (List.mem_append_right middle List.mem_cons_self) hOther

/-- A key determines its namespace and its part. -/
theorem keyOf_injective {name other part otherPart : String} (hPart : ':' ∉ part.toList)
    (hOther : ':' ∉ otherPart.toList) (hSame : keyOf name part = keyOf other otherPart) :
    name = other ∧ part = otherPart := by
  have hLists : name.toList ++ ':' :: part.toList = other.toList ++ ':' :: otherPart.toList := by
    rw [keyOf, keyOf] at hSame
    have hTexts := congrArg String.toList hSame
    simpa using hTexts
  obtain ⟨hNames, hParts⟩ := append_cons_injective hPart hOther hLists
  exact ⟨String.toList_inj.mp hNames, String.toList_inj.mp hParts⟩

/-- The kind of values that a part of a namespace has. -/
def kindOf? : String → Option StoredKind
  | "namespace" => some .text
  | "instances" => some .table
  | "predicates" => some .set
  | "functions" => some .table
  | _ => none

theorem UsedAs.exists_part {key : String} {kind : StoredKind} (hUsed : UsedAs key kind) :
    ∃ name part, key = keyOf name part ∧ ':' ∉ part.toList ∧ kindOf? part = some kind := by
  cases hUsed with
  | active => exact ⟨"state", "namespace", by decide, by decide, rfl⟩
  | instances name => exact ⟨name, "instances", rfl, by decide, rfl⟩
  | facts name => exact ⟨name, "predicates", rfl, by decide, rfl⟩
  | values name => exact ⟨name, "functions", rfl, by decide, rfl⟩

/-- A key is used with one kind of values. -/
theorem UsedAs.unique {key : String} {kind other : StoredKind} (hUsed : UsedAs key kind) (hOther : UsedAs key other) :
    kind = other := by
  obtain ⟨name, part, rfl, hPart, hKind⟩ := hUsed.exists_part
  obtain ⟨otherName, otherPart, hSame, hOtherPart, hOtherKind⟩ := hOther.exists_part
  obtain ⟨-, rfl⟩ := keyOf_injective hPart hOtherPart hSame
  exact Option.some.inj (hKind.symm.trans hOtherKind)

/-- The parts of the state of a problem. -/
def parts : List String := ["instances", "predicates", "functions"]

theorem keys_eq (problem : Problem) (database : Database) :
    problem.keys database = parts.map (keyOf (problem.name database)) :=
  rfl

theorem colon_notMem {part : String} (hPart : part ∈ parts) : ':' ∉ part.toList := by
  have hAll : ∀ part ∈ parts, ':' ∉ part.toList := by decide
  exact hAll part hPart

theorem activeKey_notMem_keys (problem : Problem) (database : Database) : activeKey ∉ problem.keys database := by
  rw [keys_eq]
  intro hMem
  obtain ⟨part, hPart, hKey⟩ := List.mem_map.mp hMem
  have hSame : keyOf (problem.name database) part = keyOf "state" "namespace" := hKey
  obtain ⟨-, rfl⟩ := keyOf_injective (colon_notMem hPart) (by decide) hSame
  exact absurd hPart (by decide)

variable {problem other : Problem} {database before after : Database}

/-- A problem under another namespace has other keys. -/
theorem keyOf_notMem_keys {name : String} (hName : name ≠ problem.name database) {part : String}
    (hPart : part ∈ parts) : keyOf name part ∉ problem.keys database := by
  rw [keys_eq]
  intro hMem
  obtain ⟨otherPart, hOther, hKey⟩ := List.mem_map.mp hMem
  exact hName (keyOf_injective (colon_notMem hOther) (colon_notMem hPart) hKey).1.symm

/-! ## Only the keys of the problem change -/

/-- Only keys of the problem change. -/
def ChangesOwn (problem : Problem) (before after : Database) : Prop :=
  ∀ key, key ∉ problem.keys before → after.get? key = before.get? key

namespace ChangesOwn

theorem refl (problem : Problem) (database : Database) : problem.ChangesOwn database database :=
  fun _ _ => rfl

variable (hOwn : problem.ChangesOwn before after)

include hOwn

theorem active : after.get? activeKey = before.get? activeKey :=
  hOwn activeKey (activeKey_notMem_keys problem before)

/-- One more change to a part of the problem. -/
theorem trans {next : Database} {part : String} (hPart : part ∈ parts)
    (hChange : problem.ChangesOnly part after next) : problem.ChangesOwn before next := by
  intro key hKey
  have hOther : key ≠ keyOf (problem.name after) part := by
    rintro rfl
    rw [name_eq_of_get?_eq hOwn.active, keys_eq] at hKey
    exact hKey (List.mem_map_of_mem hPart)
  rw [hChange key hOther, hOwn key hKey]

/-- The problems under other namespaces stay as they are. -/
theorem sameState (hName : other.name before ≠ problem.name before) : other.SameState before after := by
  have hSame : other.name after = other.name before := name_eq_of_get?_eq hOwn.active
  have hPart {part : String} (hPart : part ∈ parts) :
      after.get? (keyOf (other.name after) part) = before.get? (keyOf (other.name before) part) := by
    rw [hSame]
    exact hOwn _ (keyOf_notMem_keys hName hPart)
  refine ⟨?_, ?_, ?_⟩
  · rw [instances, instances, instancesKey, instancesKey, Database.fields, Database.fields, hPart (by decide)]
  · rw [facts, facts, factsKey, factsKey, Database.members, Database.members, hPart (by decide)]
  · rw [assignments, assignments, valuesKey, valuesKey, Database.fields, Database.fields, hPart (by decide)]

end ChangesOwn

theorem stable_changesOwn (problem : Problem) (before : Database) : problem.Stable (problem.ChangesOwn before) where
  declare object hOwn := hOwn.trans (by decide) (changesOnly_declare object)
  insert hOwn _ := hOwn.trans (by decide) (changesOnly_insert _)
  remove fact hOwn := hOwn.trans (by decide) (changesOnly_remove fact)
  write assignment hOwn := hOwn.trans (by decide) (changesOnly_write assignment)

/-- Loading stores facts and numbers one after the other. -/
theorem load_induction {holds : Database → Prop}
    (hInsert : ∀ {database : Database} (fact : Fact), holds database → holds (problem.insert fact database))
    (hWrite : ∀ {database : Database} (assignment : Assignment), holds database →
      holds (problem.write assignment database))
    {state : Snapshot} (hHolds : holds database) : holds (problem.load state database) := by
  have hFacts : holds (state.facts.foldl (fun current fact => problem.insert fact current) database) :=
    List.foldlRecOn state.facts _ hHolds fun _ hBefore fact _ => hInsert fact hBefore
  exact List.foldlRecOn state.assignments _ hFacts fun _ hBefore assignment _ => hWrite assignment hBefore

/-! ## Values are kept under keys of their kind -/

/-- The values of a database are of the kinds that their keys are used with. -/
def WellKept (database : Database) : Prop :=
  ∀ key value, database.get? key = some value → UsedAs key value.kind

namespace WellKept

variable (hKept : WellKept database)

include hKept

/-- A change to one key. -/
theorem change {key : String} {kind : StoredKind} (hUsed : UsedAs key kind) {next : Database}
    (hOther : ∀ other, other ≠ key → next.get? other = database.get? other)
    (hValue : ∀ value, next.get? key = some value → database.get? key = some value ∨ value.kind = kind) :
    WellKept next := by
  intro found value hFound
  by_cases hKey : found = key
  · subst hKey
    rcases hValue value hFound with hOld | rfl
    · exact hKept found value hOld
    · exact hUsed
  · exact hKept found value (hOther found hKey ▸ hFound)

theorem kind_eq {key : String} {kind : StoredKind} (hUsed : UsedAs key kind) {value : StoredValue}
    (hFound : database.get? key = some value) : value.kind = kind :=
  (hKept key value hFound).unique hUsed

/-- Every problem finds what it looks for. -/
theorem findsKinds (problem : Problem) : problem.FindsKinds database where
  active _ hFound := StoredValue.exists_text (hKept.kind_eq .active hFound)
  instances _ hFound := StoredValue.exists_table (hKept.kind_eq (.instances _) hFound)
  facts _ hFound := StoredValue.exists_set (hKept.kind_eq (.facts _) hFound)
  values _ hFound := StoredValue.exists_table (hKept.kind_eq (.values _) hFound)

theorem declare (object : Instance) : WellKept (problem.declare object database) :=
  hKept.change (.instances _) (changesOnly_declare object) fun _ hValue => Or.inr (Database.kind_setField hValue)

theorem insert (fact : Fact) : WellKept (problem.insert fact database) :=
  hKept.change (.facts _) (changesOnly_insert fact) fun _ hValue => Database.kind_addMember hValue

theorem remove (fact : Fact) : WellKept (problem.remove fact database) :=
  hKept.change (.facts _) (changesOnly_remove fact) fun _ hValue => Database.kind_removeMember hValue

theorem write (assignment : Assignment) : WellKept (problem.write assignment database) :=
  hKept.change (.values _) (changesOnly_write assignment) fun _ hValue => Or.inr (Database.kind_setField hValue)

theorem activate (name : String) : WellKept (Problem.activate database name) := by
  refine hKept.change .active (fun _ hOther => Database.get?_set_ne hOther _) fun value hValue => Or.inr ?_
  rw [Problem.activate, Database.get?_set_self] at hValue
  obtain rfl := Option.some.inj hValue
  rfl

end WellKept

/-- A property of databases that everything keeps that changes them, other than clearing a namespace. -/
structure Lasting (holds : Database → Prop) : Prop where
  activate : ∀ {database : Database} (name : String), holds database → holds (Problem.activate database name)
  declare : ∀ (problem : Problem) {database : Database} (object : Instance), holds database →
    holds (problem.declare object database)
  insert : ∀ (problem : Problem) {database : Database} (fact : Fact), holds database →
    holds (problem.insert fact database)
  remove : ∀ (problem : Problem) {database : Database} (fact : Fact), holds database →
    holds (problem.remove fact database)
  write : ∀ (problem : Problem) {database : Database} (assignment : Assignment), holds database →
    holds (problem.write assignment database)

theorem Lasting.stable {holds : Database → Prop} (hLasting : Lasting holds) (problem : Problem) :
    problem.Stable holds where
  declare := hLasting.declare problem
  insert hHolds _ := hLasting.insert problem _ hHolds
  remove := hLasting.remove problem
  write := hLasting.write problem

theorem lasting_wellKept : Lasting WellKept where
  activate name hKept := hKept.activate name
  declare _ _ object hKept := hKept.declare object
  insert _ _ fact hKept := hKept.insert fact
  remove _ _ fact hKept := hKept.remove fact
  write _ _ assignment hKept := hKept.write assignment

end Problem

namespace Server

open Problem

variable {server : Server} {holds : Database → Prop}

/-- A property of all databases after a change of one of them. -/
theorem ChangedAt.forall_databases {next : Server} {number : Int} (hNext : server.ChangedAt number holds next)
    (hHolds : ∀ number, holds (server.store.database number)) : ∀ number, holds (next.store.database number) := by
  intro other
  by_cases hOther : other = number
  · exact hOther ▸ hNext.here
  · rw [hNext.elsewhere other hOther]
    exact hHolds other

/-- One event. -/
theorem forall_after (hLasting : Lasting holds) (hHolds : ∀ number, holds (server.store.database number))
    {event : Event} (hClears : ¬ event.clears) : ∀ number, holds ((server.after event).store.database number) := by
  cases event with
  | activate number name =>
      have hStart : server.ChangedAt number holds server := .refl (hHolds number)
      have hNext : server.ChangedAt number holds (server.after (.activate number name)) :=
        @ChangedAt.changed ⟨number, none⟩ _ _ _ _ hStart fun hHere => hLasting.activate name hHere
      exact hNext.forall_databases hHolds
  | act problem deed =>
      have hStart : server.ChangedAt problem.database holds server := .refl (hHolds problem.database)
      have hLoad {database : Database} {state : Snapshot} (hHere : holds database) :
          holds (problem.load state database) :=
        load_induction (fun fact hBefore => hLasting.insert problem fact hBefore)
          (fun assignment hBefore => hLasting.write problem assignment hBefore) hHere
      exact ((hLasting.stable problem).changedAt_act hStart (fun _ => hLoad) hClears).forall_databases hHolds

/-- Events in order. -/
theorem forall_afterAll (hLasting : Lasting holds) (hHolds : ∀ number, holds (server.store.database number))
    {events : List Event} (hClears : ∀ event ∈ events, ¬ event.clears) :
    ∀ number, holds ((server.afterAll events).store.database number) := by
  induction events generalizing server with
  | nil => exact hHolds
  | cons event events ih =>
      obtain ⟨hFirst, hRest⟩ := List.forall_mem_cons.mp hClears
      exact ih (forall_after hLasting hHolds hFirst) hRest

/-- The values of all databases are of the kinds that their keys are used with. -/
def WellKept (server : Server) : Prop :=
  ∀ number, Problem.WellKept (server.store.database number)

theorem wellKept_empty (reachable : Bool) : (Server.mk .empty reachable).WellKept :=
  fun _ _ _ hFound => absurd hFound (by simp [Database.get?, Store.database, Store.empty, Store.lookup?])

end Server

namespace Problem

/-! ## Acts -/

/-- What is done with a problem leaves the active namespaces as they are, and the problems in other databases and under
other namespaces. -/
structure Spares (problem : Problem) (server next : Server) : Prop where
  active : ∀ number, activeNamespace (next.store.database number) = activeNamespace (server.store.database number)
  sameState : ∀ other : Problem,
    (other.database = problem.database →
      other.name (server.store.database other.database) ≠ problem.name (server.store.database problem.database)) →
    other.SameState (server.store.database other.database) (next.store.database other.database)

theorem SameState.refl (problem : Problem) (database : Database) : problem.SameState database database :=
  ⟨rfl, rfl, rfl⟩

theorem spares_act (problem : Problem) (server : Server) {deed : Act} (hClear : deed ≠ .perform .clear) :
    problem.Spares server (problem.act server deed) := by
  have hStable := stable_changesOwn problem (server.store.database problem.database)
  have hLoad {database : Database} {state : Snapshot}
      (hOwn : problem.ChangesOwn (server.store.database problem.database) database) :
      problem.ChangesOwn (server.store.database problem.database) (problem.load state database) :=
    load_induction (fun fact hBefore => hBefore.trans (by decide) (changesOnly_insert fact))
      (fun assignment hBefore => hBefore.trans (by decide) (changesOnly_write assignment)) hOwn
  have hStart : server.ChangedAt problem.database
      (problem.ChangesOwn (server.store.database problem.database)) server :=
    .refl (.refl _ _)
  have hNext := hStable.changedAt_act hStart (fun _ => hLoad) hClear
  refine ⟨fun number => ?_, fun other hOther => ?_⟩
  · by_cases hNumber : number = problem.database
    · subst hNumber
      rw [activeNamespace, activeNamespace, hNext.here.active]
    · rw [hNext.elsewhere number hNumber]
  · by_cases hDatabase : other.database = problem.database
    · have hName := hOther hDatabase
      rw [hDatabase] at hName ⊢
      exact hNext.here.sameState hName
    · rw [hNext.elsewhere _ hDatabase]
      exact .refl _ _

/-- What is done with a problem, other than clearing it, leaves all problems under other namespaces and in other
databases as they are, and the active namespaces.  A key is used with one kind of values: whatever happened on a
server that stored nothing at first, other than clearing, every key has a value of the kind that it is used with,
so every problem finds values of the kinds that it looks for. -/
theorem spares_act_and_wellKept :
    (∀ (problem : Problem) (server : Server) (deed : Act), deed ≠ .perform .clear →
        problem.Spares server (problem.act server deed)) ∧
      (∀ (key : String) (kind other : StoredKind), UsedAs key kind → UsedAs key other → kind = other) ∧
      ∀ (reachable : Bool) (events : List Event), (∀ event ∈ events, ¬ event.clears) →
        let server := (Server.mk .empty reachable).afterAll events
        server.WellKept ∧ ∀ problem : Problem, problem.FindsKinds (server.store.database problem.database) := by
  refine ⟨fun problem server _ hClear => spares_act problem server hClear,
    fun _ _ _ hUsed hOther => hUsed.unique hOther, fun reachable events hClears => ?_⟩
  have hKept : ((Server.mk .empty reachable).afterAll events).WellKept :=
    Server.forall_afterAll lasting_wellKept (Server.wellKept_empty reachable) hClears
  exact ⟨hKept, fun problem => (hKept problem.database).findsKinds problem⟩

/-- Here an effect is made true under a namespace, and another namespace is called like a key of it. -/
theorem spares_act_and_wellKept_nested :
    let inner : Problem := ⟨0, some "state:predicates"⟩
    let problem : Problem := ⟨0, none⟩
    let events : List Event := [.activate 0 "state", .act inner (.perform (.declare ⟨"a", "object"⟩)),
      .act inner (.perform (.add ⟨"p", ["a"]⟩)), .act problem (.perform (.load ⟨[⟨"p", ["b"]⟩], []⟩))]
    let deed : Act := .evaluate true (Tree.ofCondition (some (.atom ⟨"q", []⟩)) []) 0 false
    let server := Server.empty.afterAll events
    let next := problem.act server deed
    problem.Spares server next ∧ inner.SameState (server.store.database 0) (next.store.database 0) ∧
      (problem.holds (server.store.database 0) ⟨"q", []⟩, problem.holds (next.store.database 0) ⟨"q", []⟩) =
        (false, true) ∧
      problem.FindsKinds (server.store.database 0) ∧
      ∀ value, (server.store.database 0).get? (problem.factsKey (server.store.database 0)) = some value →
        value.kind = .set := by
  intro inner problem events deed server next
  have hClears : ∀ event ∈ events, ¬ event.clears := by
    simp [events, Event.clears]
  have hSpares := spares_act_and_wellKept.1 problem server deed (by simp [deed])
  obtain ⟨hKept, hFinds⟩ := spares_act_and_wellKept.2.2 true events hClears
  exact ⟨hSpares, hSpares.sameState inner fun _ => by decide +kernel, by decide +kernel, hFinds problem,
    fun value hFound => spares_act_and_wellKept.2.1 _ _ _ (hKept 0 _ value hFound) (.facts _)⟩

end Problem
end PlanLogic
