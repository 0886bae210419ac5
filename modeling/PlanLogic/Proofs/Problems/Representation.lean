import PlanLogic.Problem.Basic
import PlanLogic.Proofs.Decimal.Numerals
import PlanLogic.Proofs.Documents.RoundTrip
import PlanLogic.Proofs.Store.Databases

/-!
# Problems that represent a snapshot

A problem represents a snapshot if it stores the texts of its facts and the texts of its heads with those of their
numbers, and declares no object.  The texts of facts made of names are different for different facts, and the
text of a number denotes the number again.  So each question about the snapshot has its answer in the store, and
changes on both sides lead to states that correspond again.
-/

namespace PlanLogic

/-- The field that the number of a head is stored in. -/
def Assignment.field (assignment : Assignment) : String × String :=
  (assignment.head.key, Decimal.fullText assignment.value)

/-! ## Texts of facts in lists -/

/-- If each text is read back, so are all texts of a list. -/
theorem mapM_map_eq_ok {read : β → Except ε α} {write : α → β} {xs : List α}
    (hRead : ∀ x ∈ xs, read (write x) = .ok x) : (xs.map write).mapM read = .ok xs := by
  induction xs with
  | nil => rfl
  | cons x xs ih =>
      rw [List.map_cons, List.mapM_cons, hRead x List.mem_cons_self,
        ih fun other hMem => hRead other (List.mem_cons_of_mem x hMem)]
      rfl

namespace Fact

variable {facts : List Fact} {fact : Fact}

theorem contains_map_key (hFacts : ∀ other ∈ facts, other.Spelled) (hFact : fact.Spelled) :
    (facts.map key).contains fact.key = facts.contains fact := by
  rw [Bool.eq_iff_iff, List.contains_iff_mem, List.contains_iff_mem, List.mem_map]
  constructor
  · rintro ⟨other, hOther, hKey⟩
    rwa [← key_injective (hFacts other hOther) hFact hKey]
  · exact fun hMem => ⟨fact, hMem, rfl⟩

theorem filter_map_key (hFacts : ∀ other ∈ facts, other.Spelled) (hFact : fact.Spelled) (hNodup : facts.Nodup) :
    (facts.map key).filter (· != fact.key) = (facts.erase fact).map key := by
  rw [List.filter_map, hNodup.erase_eq_filter]
  refine congrArg (List.map key) (List.filter_congr fun other hOther => ?_)
  have hSame : other.key = fact.key ↔ other = fact :=
    ⟨key_injective (hFacts other hOther) hFact, congrArg key⟩
  rw [Function.comp_apply, Bool.eq_iff_iff, bne_iff_ne, bne_iff_ne, Ne, Ne, hSame]

theorem mapM_ofText_map_key (hFacts : ∀ other ∈ facts, other.Writable) :
    (facts.map key).mapM ofText = .ok facts :=
  mapM_map_eq_ok fun other hMem => (hFacts other hMem).ofText_key

end Fact

namespace Assignment

variable {assignments : List Assignment} {assignment : Assignment}

theorem lookup?_map_field (key : String) (assignments : List Assignment) :
    Store.lookup? key (assignments.map field) =
      (assignments.find? fun assignment => assignment.head.key == key).map fun assignment =>
        Decimal.fullText assignment.value := by
  induction assignments with
  | nil => rfl
  | cons assignment assignments ih =>
      rw [List.map_cons, Store.lookup?, List.find?_cons]
      by_cases hKey : assignment.head.key = key
      · rw [field, if_pos hKey, beq_iff_eq.mpr hKey]
        rfl
      · rw [field, if_neg hKey, beq_eq_false_iff_ne.mpr hKey, ih]

/-- Storing a number changes the field of its head if there is one. -/
theorem put_map_field_of_mem (hHeads : ∀ other ∈ assignments.map head, other.Spelled)
    (hMem : assignment.head ∈ assignments.map head) :
    Store.put assignment.head.key (Decimal.fullText assignment.value) (assignments.map field) =
      (Snapshot.replaceFirst assignment assignments).map field := by
  have hHead := hHeads _ hMem
  induction assignments with
  | nil => exact absurd hMem List.not_mem_nil
  | cons old assignments ih =>
      rw [List.map_cons, Store.put, Snapshot.replaceFirst]
      by_cases hSame : old.head = assignment.head
      · rw [if_pos hSame, field, if_pos (congrArg Fact.key hSame)]
        rfl
      · have hKey : ¬ old.head.key = assignment.head.key := fun hKey =>
          hSame (Fact.key_injective (hHeads old.head List.mem_cons_self) hHead hKey)
        have hRest : assignment.head ∈ assignments.map head :=
          (List.mem_cons.mp hMem).resolve_left fun hHere => hSame hHere.symm
        rw [if_neg hSame, field, if_neg hKey, List.map_cons,
          ih (fun other hOther => hHeads other (List.mem_cons_of_mem _ hOther)) hRest]
        rfl

/-- Storing a number of a new head adds a field at the end. -/
theorem put_map_field_of_notMem (hHeads : ∀ other ∈ assignments.map head, other.Spelled)
    (hHead : assignment.head.Spelled) (hNew : assignment.head ∉ assignments.map head) :
    Store.put assignment.head.key (Decimal.fullText assignment.value) (assignments.map field) =
      (assignments ++ [assignment]).map field := by
  induction assignments with
  | nil => rfl
  | cons old assignments ih =>
      rw [List.map_cons, List.mem_cons, not_or] at hNew
      have hKey : ¬ old.head.key = assignment.head.key := fun hKey =>
        hNew.1 (Fact.key_injective (hHeads old.head List.mem_cons_self) hHead hKey).symm
      rw [List.map_cons, Store.put, field, if_neg hKey, List.cons_append, List.map_cons,
        ih (fun other hOther => hHeads other (List.mem_cons_of_mem _ hOther)) hNew.2]
      rfl

theorem readField_field (hHead : assignment.head.Writable) : Problem.readField assignment.field = .ok assignment := by
  rw [Problem.readField, field, hHead.ofText_key, Problem.storedNumber?, Decimal.fullText, Decimal.numeral?_text]

theorem mapM_readField_map_field (hHeads : ∀ other ∈ assignments.map head, other.Writable) :
    (assignments.map field).mapM Problem.readField = .ok assignments :=
  mapM_map_eq_ok fun _ hMem => readField_field (hHeads _ (List.mem_map_of_mem hMem))

end Assignment

namespace Problem

/-! ## Keys of a namespace -/

theorem keyOf_ne {part other : String} (hParts : part ≠ other) (name : String) :
    keyOf name part ≠ keyOf name other := by
  intro hSame
  rw [keyOf, keyOf, String.append_right_inj] at hSame
  exact hParts hSame

/-- The keys of a namespace end like their parts. -/
theorem keyOf_ne_activeKey {name part : String} {last : Char} (hLast : part.toList.getLast? = some last)
    (hOther : last ≠ 'e') : keyOf name part ≠ activeKey := by
  intro hSame
  have hEnds := congrArg (fun text => text.toList.getLast?) hSame
  rw [keyOf, String.toList_append, List.getLast?_append, hLast] at hEnds
  exact hOther (Option.some.inj hEnds)

variable {problem : Problem} {database changed : Database} {state : Snapshot}

/-- A change that leaves the active namespace alone leaves the namespace of every problem alone. -/
theorem name_eq_of_get?_eq (hActive : changed.get? activeKey = database.get? activeKey) :
    problem.name changed = problem.name database := by
  rw [name, name, activeNamespace, activeNamespace, hActive]

/-- A change to one part of a problem leaves all other keys alone. -/
def ChangesOnly (problem : Problem) (part : String) (database changed : Database) : Prop :=
  ∀ key, key ≠ keyOf (problem.name database) part → changed.get? key = database.get? key

namespace ChangesOnly

variable {part other : String} (hChange : problem.ChangesOnly part database changed)
  (hPart : part.toList.getLast? = some 's')

include hChange hPart

theorem active : changed.get? activeKey = database.get? activeKey :=
  hChange activeKey (keyOf_ne_activeKey hPart (by decide : 's' ≠ 'e')).symm

theorem name_eq : problem.name changed = problem.name database :=
  name_eq_of_get?_eq (hChange.active hPart)

/-- The other parts of the problem stay as they are. -/
theorem get?_eq (hOther : other ≠ part) :
    changed.get? (keyOf (problem.name changed) other) = database.get? (keyOf (problem.name database) other) := by
  rw [hChange.name_eq hPart]
  exact hChange _ (keyOf_ne hOther _)

theorem members_eq (hOther : other ≠ part) : changed.members (keyOf (problem.name changed) other) =
    database.members (keyOf (problem.name database) other) := by
  rw [Database.members, Database.members, hChange.get?_eq hPart hOther]

theorem fields_eq (hOther : other ≠ part) : changed.fields (keyOf (problem.name changed) other) =
    database.fields (keyOf (problem.name database) other) := by
  rw [Database.fields, Database.fields, hChange.get?_eq hPart hOther]

end ChangesOnly

theorem changesOnly_declare (object : Instance) :
    problem.ChangesOnly "instances" database (problem.declare object database) :=
  fun _ hOther => Database.get?_setField_ne hOther _ _

theorem changesOnly_insert (fact : Fact) : problem.ChangesOnly "predicates" database (problem.insert fact database) :=
  fun _ hOther => Database.get?_addMember_ne hOther _

theorem changesOnly_remove (fact : Fact) : problem.ChangesOnly "predicates" database (problem.remove fact database) :=
  fun _ hOther => Database.get?_removeMember_ne hOther _

theorem changesOnly_write (assignment : Assignment) :
    problem.ChangesOnly "functions" database (problem.write assignment database) :=
  fun _ hOther => Database.get?_setField_ne hOther _ _

/-! ## What is stored -/

/-- The problem stores what a sound snapshot holds. -/
structure Stores (problem : Problem) (database : Database) (state : Snapshot) : Prop where
  facts : database.members (problem.factsKey database) = state.facts.map Fact.key
  values : database.fields (problem.valuesKey database) = state.assignments.map Assignment.field
  sound : state.Sound

namespace Stores

variable (hStores : problem.Stores database state)

include hStores

theorem spelled_facts : ∀ fact ∈ state.facts, fact.Spelled :=
  fun fact hMem => (hStores.sound.facts_writable fact hMem).spelled

theorem spelled_heads : ∀ head ∈ state.assignments.map Assignment.head, head.Spelled :=
  fun head hMem => (hStores.sound.heads_writable head hMem).spelled

/-! ### Answers -/

theorem holds_eq {fact : Fact} (hFact : fact.Spelled) : problem.holds database fact = state.holds fact := by
  rw [holds, hStores.facts, Fact.contains_map_key hStores.spelled_facts hFact, Snapshot.holds]

theorem value?_eq (key : String) : problem.value? database key = state.value? key := by
  rw [value?, hStores.values, Assignment.lookup?_map_field, Snapshot.value?]
  cases state.assignments.find? fun assignment => assignment.head.key == key with
  | none => rfl
  | some assignment => exact Decimal.numeral?_text _ _

/-- What is stored is what the snapshot holds, in order of the texts. -/
theorem snapshot_eq : problem.snapshot database =
    .ok ⟨sortedBy Fact.key state.facts, sortedBy (fun assignment => assignment.head.key) state.assignments⟩ := by
  have hFacts : problem.facts database = .ok (sortedBy Fact.key state.facts) := by
    rw [Problem.facts, hStores.facts, Fact.mapM_ofText_map_key hStores.sound.facts_writable]
    rfl
  have hAssignments : problem.assignments database =
      .ok (sortedBy (fun assignment => assignment.head.key) state.assignments) := by
    rw [Problem.assignments, hStores.values, Assignment.mapM_readField_map_field hStores.sound.heads_writable]
    rfl
  rw [Problem.snapshot, hFacts, hAssignments]
  rfl

/-! ### Changes -/

/-- A change to the stored facts alone. -/
theorem change_facts {next : Snapshot} (hChange : problem.ChangesOnly "predicates" database changed)
    (hFacts : changed.members (problem.factsKey database) = next.facts.map Fact.key)
    (hAssignments : next.assignments = state.assignments) (hSound : next.Sound) : problem.Stores changed next where
  facts := by
    rw [factsKey, hChange.name_eq (by decide)]
    exact hFacts
  values := by
    rw [hAssignments, ← hStores.values]
    exact hChange.fields_eq (by decide) (by decide)
  sound := hSound

theorem insert {fact : Fact} (hFact : fact.Writable) :
    problem.Stores (problem.insert fact database) (state.add fact) := by
  refine hStores.change_facts (changesOnly_insert fact) ?_ (state.assignments_add fact) (hStores.sound.add hFact)
  refine (Database.members_addMember_self _ _ _).trans ?_
  rw [hStores.facts, Fact.contains_map_key hStores.spelled_facts hFact.spelled, Snapshot.add, Snapshot.holds]
  split
  · rfl
  · rw [List.map_append, List.map_singleton]

theorem remove {fact : Fact} (hFact : fact.Spelled) :
    problem.Stores (problem.remove fact database) (state.remove fact) := by
  refine hStores.change_facts (changesOnly_remove fact) ?_ rfl (hStores.sound.remove fact)
  refine (Database.members_removeMember_self _ _ _).trans ?_
  rw [hStores.facts, Fact.filter_map_key hStores.spelled_facts hFact hStores.sound.facts_nodup, Snapshot.remove]

/-- The store takes a number for any head, as reading a document does. -/
theorem write {assignment : Assignment} (hHead : assignment.head.Writable) :
    problem.Stores (problem.write assignment database) (state.assign assignment) where
  facts := by
    rw [Snapshot.facts_assign, ← hStores.facts]
    exact (changesOnly_write assignment).members_eq (by decide) (by decide)
  values := by
    rw [valuesKey, (changesOnly_write assignment).name_eq (by decide)]
    refine (Database.fields_setField_self _ _ _ _).trans ?_
    rw [hStores.values, Snapshot.assign]
    split
    · next hKnown => exact Assignment.put_map_field_of_mem hStores.spelled_heads (Snapshot.assigns_iff.mp hKnown)
    · next hNew =>
        rw [Snapshot.assigns_iff] at hNew
        exact Assignment.put_map_field_of_notMem hStores.spelled_heads hHead.spelled hNew
  sound := hStores.sound.assign hHead

omit hStores in
/-- A namespace without keys stores nothing. -/
theorem empty (hNone : ∀ part ∈ ["predicates", "functions"],
    database.get? (keyOf (problem.name database) part) = none) : problem.Stores database Snapshot.empty where
  facts := Database.members_eq_nil_of_get?_eq_none (hNone "predicates" (by decide))
  values := Database.fields_eq_nil_of_get?_eq_none (hNone "functions" (by decide))
  sound := Snapshot.Sound.empty

end Stores

/-! ## Representation -/

/-- The problem stores what a sound snapshot holds, and declares no object. -/
structure Represents (problem : Problem) (database : Database) (state : Snapshot) : Prop where
  facts : database.members (problem.factsKey database) = state.facts.map Fact.key
  values : database.fields (problem.valuesKey database) = state.assignments.map Assignment.field
  undeclared : database.fields (problem.instancesKey database) = []
  sound : state.Sound

namespace Represents

variable (hRepresents : problem.Represents database state)

include hRepresents

theorem stores : problem.Stores database state :=
  ⟨hRepresents.facts, hRepresents.values, hRepresents.sound⟩

/-! ### Answers -/

theorem holds_eq {fact : Fact} (hFact : fact.Spelled) : problem.holds database fact = state.holds fact :=
  hRepresents.stores.holds_eq hFact

theorem value?_eq (key : String) : problem.value? database key = state.value? key :=
  hRepresents.stores.value?_eq key

theorem admits_eq_true (fact : Fact) : problem.admits database fact = true := by
  rw [admits, hRepresents.undeclared]
  rfl

theorem snapshot_eq : problem.snapshot database =
    .ok ⟨sortedBy Fact.key state.facts, sortedBy (fun assignment => assignment.head.key) state.assignments⟩ :=
  hRepresents.stores.snapshot_eq

/-! ### Changes -/

/-- A change to a part of the problem other than its declared objects. -/
theorem change {part : String} {next : Snapshot} (hChange : problem.ChangesOnly part database changed)
    (hPart : part.toList.getLast? = some 's') (hOther : "instances" ≠ part) (hStores : problem.Stores changed next) :
    problem.Represents changed next :=
  ⟨hStores.facts, hStores.values, (hChange.fields_eq hPart hOther).trans hRepresents.undeclared, hStores.sound⟩

theorem insert {fact : Fact} (hFact : fact.Writable) :
    problem.Represents (problem.insert fact database) (state.add fact) :=
  hRepresents.change (changesOnly_insert fact) (by decide) (by decide) (hRepresents.stores.insert hFact)

theorem remove {fact : Fact} (hFact : fact.Spelled) :
    problem.Represents (problem.remove fact database) (state.remove fact) :=
  hRepresents.change (changesOnly_remove fact) (by decide) (by decide) (hRepresents.stores.remove hFact)

/-- The store takes a number for any head, as reading a document does. -/
theorem write {assignment : Assignment} (hHead : assignment.head.Writable) :
    problem.Represents (problem.write assignment database) (state.assign assignment) :=
  hRepresents.change (changesOnly_write assignment) (by decide) (by decide) (hRepresents.stores.write hHead)

omit hRepresents in
/-- A namespace without keys represents the snapshot that holds nothing. -/
theorem empty (hNone : ∀ part ∈ ["instances", "predicates", "functions"],
    database.get? (keyOf (problem.name database) part) = none) : problem.Represents database Snapshot.empty where
  facts := Database.members_eq_nil_of_get?_eq_none (hNone "predicates" (by decide))
  values := Database.fields_eq_nil_of_get?_eq_none (hNone "functions" (by decide))
  undeclared := Database.fields_eq_nil_of_get?_eq_none (hNone "instances" (by decide))
  sound := Snapshot.Sound.empty

/-- Changes in order, each of which leads from states that correspond to states that correspond. -/
theorem foldl {change : Database → α → Database} {next : Snapshot → α → Snapshot} {xs : List α}
    (hChange : ∀ x ∈ xs, ∀ {database : Database} {state : Snapshot}, problem.Represents database state →
      problem.Represents (change database x) (next state x)) :
    problem.Represents (xs.foldl change database) (xs.foldl next state) := by
  induction xs generalizing database state with
  | nil => exact hRepresents
  | cons x xs ih =>
      exact ih (hChange x List.mem_cons_self hRepresents) fun other hMem => hChange other (List.mem_cons_of_mem x hMem)

omit hRepresents in
/-- A sound snapshot that is loaded into a namespace without keys is represented there. -/
theorem load (hSound : state.Sound) (hNone : ∀ part ∈ ["instances", "predicates", "functions"],
    database.get? (keyOf (problem.name database) part) = none) :
    problem.Represents (problem.load state database) state := by
  have hFacts : problem.Represents (state.facts.foldl (fun current fact => problem.insert fact current) database)
      (state.facts.foldl Snapshot.add Snapshot.empty) :=
    (empty hNone).foldl fun fact hMem _ _ hBefore => hBefore.insert (hSound.facts_writable fact hMem)
  have hLoaded : problem.Represents (problem.load state database)
      (state.assignments.foldl Snapshot.assign (state.facts.foldl Snapshot.add Snapshot.empty)) :=
    hFacts.foldl fun assignment hMem _ _ hBefore =>
      hBefore.write (hSound.heads_writable _ (List.mem_map_of_mem hMem))
  rwa [hSound.foldl_assign_foldl_add] at hLoaded

end Represents
end Problem
end PlanLogic
