import PlanLogic.Proofs.Problems.Acts

/-!
# Facts about declared objects

Once an object is declared, a problem admits only facts about declared objects.  Whatever is done with it then, other
than loading and clearing, the stored facts stay about declared objects: nothing takes a declaration back, and
every addition, also one deep inside an evaluation, asks first.

To speak of every addition, a run is made once more with a list of its additions beside it.  Listing them changes
nothing else.
-/

namespace PlanLogic

/-- A fact that was to be added, whether it was, and the server before and afterwards. -/
structure Addition where
  fact : Fact
  done : Bool
  before : Server
  after : Server

namespace Problem

/-! ## Additions -/

/-- An addition is done exactly if the problem admits the fact, and changes nothing otherwise. -/
structure Guards (problem : Problem) (addition : Addition) : Prop where
  done_eq : addition.done = problem.admits (addition.before.store.database problem.database) addition.fact
  refused : addition.done = false →
    ∀ number, addition.after.store.database number = addition.before.store.database number

/-- Evaluation steps against a problem that list their additions. -/
abbrev Recorded := ReaderT Problem (EStateM Unreachable (Observed Server × List Addition))

namespace Recorded

/-- A run that adds nothing. -/
def silently (run : Run α) : Recorded α := fun problem state =>
  match run problem state.1 with
  | .ok answer after => .ok answer (after, state.2)
  | .error cause after => .error cause (after, state.2)

/-- Adds a fact if it may be added, and lists the addition. -/
def add (fact : Fact) : Recorded Bool := fun problem state =>
  match Run.add fact problem state.1 with
  | .ok done after => .ok done (after, state.2 ++ [⟨fact, done, state.1.state, after.state⟩])
  | .error cause after => .error cause (after, state.2)

instance : FactBase Recorded where
  holds fact := silently (FactBase.holds fact)
  add := add
  remove fact := silently (FactBase.remove fact)
  value? key := silently (FactBase.value? key)
  write assignment := silently (FactBase.write assignment)
  objects := silently FactBase.objects
  report diagnostic := silently (FactBase.report diagnostic)

end Recorded

/-- What evaluating a part of a tree against a problem shows, and the additions that were made. -/
def recorded (problem : Problem) (server : Server) (commit : Bool) (tree : Tree) (reference : Int) (negated : Bool) :
    (Except Unreachable Outcome × Server × String) × List Addition :=
  match (PlanLogic.evaluate commit tree reference negated : Recorded Outcome) problem (.start server, []) with
  | .ok outcome (after, additions) => ((.ok outcome, after.seen), additions)
  | .error cause (after, additions) => ((.error cause, after.seen), additions)

/-- A recorded run ends as the run does, and its additions are guarded. -/
inductive Records (problem : Problem) (post : α → Prop) : EStateM.Result Unreachable (Observed Server) α →
    EStateM.Result Unreachable (Observed Server × List Addition) α → Prop
  | ok {answer : α} {after : Observed Server} {additions : List Addition} (hPost : post answer)
      (hGuards : ∀ addition ∈ additions, problem.Guards addition) :
      Records problem post (.ok answer after) (.ok answer (after, additions))
  | error {cause : Unreachable} {after : Observed Server} {additions : List Addition}
      (hGuards : ∀ addition ∈ additions, problem.Guards addition) :
      Records problem post (.error cause after) (.error cause (after, additions))

/-- A run and a recorded run that ends alike. -/
def RecordedAs (post : α → Prop) (run : Run α) (other : Recorded α) : Prop :=
  ∀ (problem : Problem) (observed : Observed Server) (additions : List Addition),
    (∀ addition ∈ additions, problem.Guards addition) →
      problem.Records post (run problem observed) (other problem (observed, additions))

namespace RecordedAs

theorem pure {post : α → Prop} {answer : α} (hPost : post answer) :
    RecordedAs post (Pure.pure answer) (Pure.pure answer) :=
  fun _ _ _ hGuards => .ok hPost hGuards

theorem bind {middle : α → Prop} {post : β → Prop} {run : Run α} {other : Recorded α} {next : α → Run β}
    {otherNext : α → Recorded β} (hRun : RecordedAs middle run other)
    (hNext : ∀ answer, middle answer → RecordedAs post (next answer) (otherNext answer)) :
    RecordedAs post (run >>= next) (other >>= otherNext) := by
  intro problem observed additions hGuards
  show problem.Records post (EStateM.bind (run problem) _ observed)
    (EStateM.bind (other problem) _ (observed, additions))
  have hRecords := hRun problem observed additions hGuards
  rw [EStateM.bind, EStateM.bind]
  generalize run problem observed = result, other problem (observed, additions) = otherResult at hRecords ⊢
  cases hRecords with
  | ok hMiddle hHalfway => exact hNext _ hMiddle problem _ _ hHalfway
  | error hHalfway => exact .error hHalfway

theorem weaken {pre post : α → Prop} {run : Run α} {other : Recorded α} (hRun : RecordedAs pre run other)
    (hPost : ∀ answer, pre answer → post answer) : RecordedAs post run other := by
  intro problem observed additions hGuards
  have hRecords := hRun problem observed additions hGuards
  generalize run problem observed = result, other problem (observed, additions) = otherResult at hRecords ⊢
  cases hRecords with
  | ok hPre hFinal => exact .ok (hPost _ hPre) hFinal
  | error hFinal => exact .error hFinal

theorem silently {post : α → Prop} (run : Run α) (hPost : ∀ answer, post answer) :
    RecordedAs post run (Recorded.silently run) := by
  intro problem observed additions hGuards
  rw [Recorded.silently]
  cases run problem observed with
  | ok answer after => exact .ok (hPost answer) hGuards
  | error cause after => exact .error hGuards

theorem add (fact : Fact) : RecordedAs (fun _ => True) (Run.add fact) (Recorded.add fact) := by
  intro problem observed additions hGuards
  rw [Recorded.add, Run.add_apply]
  dsimp only
  split
  · exact .error hGuards
  · split
    · next next hChange hAdmits =>
        refine .ok trivial (List.forall_mem_append.mpr ⟨hGuards, List.forall_mem_singleton.mpr ⟨hAdmits.symm, ?_⟩⟩)
        exact fun hRefused => absurd hRefused (by simp)
    · next next hChange hRefused =>
        refine .ok trivial (List.forall_mem_append.mpr ⟨hGuards, List.forall_mem_singleton.mpr ⟨?_, fun _ _ => rfl⟩⟩)
        exact (Bool.not_eq_true _ ▸ hRefused).symm

end RecordedAs

/-- The runs against a problem and the recorded runs. -/
def recording (commit : Bool) : Coupling commit Run Recorded where
  vocabulary := .everything
  closed := Vocabulary.closed_everything
  known _ := True
  Coupled := RecordedAs
  pure := .pure
  bind := .bind
  weaken := .weaken
  holds _ := .silently _ fun _ => trivial
  add _ _ := .add _
  remove _ _ := .silently _ fun _ => trivial
  value? _ := .silently _ fun _ _ => trivial
  write _ _ _ := .silently _ fun _ => trivial
  objects _ := .silently _ fun _ _ _ => trivial
  report := .silently _ fun _ => trivial

variable {problem : Problem} {server : Server} {database next : Database}

/-- Recording changes nothing else, and every addition that is recorded was guarded. -/
theorem recorded_spec (problem : Problem) (server : Server) (commit : Bool) (tree : Tree) (reference : Int)
    (negated : Bool) :
    (problem.recorded server commit tree reference negated).1 = problem.seen server commit tree reference negated ∧
      ∀ addition ∈ (problem.recorded server commit tree reference negated).2, problem.Guards addition := by
  have hRecords := (recording commit).evaluate (Vocabulary.covers_everything tree) reference negated problem
    (.start server) [] fun _ hMem => absurd hMem List.not_mem_nil
  rw [recorded, seen]
  generalize (PlanLogic.evaluate commit tree reference negated : Run Outcome) problem (.start server) = result,
    (PlanLogic.evaluate commit tree reference negated : Recorded Outcome) problem (.start server, []) = other
    at hRecords ⊢
  cases hRecords with
  | ok _ hGuards => exact ⟨rfl, hGuards⟩
  | error hGuards => exact ⟨rfl, hGuards⟩

/-- The additions of an act. -/
def additions (problem : Problem) (server : Server) : Act → List Addition
  | .perform (.add fact) =>
    if server.reachable then
      [⟨fact, (problem.add fact (server.store.database problem.database)).1, server,
        problem.perform server (.add fact)⟩]
    else
      []
  | .perform (.evaluate commit tree) => (problem.recorded server commit tree 0 false).2
  | .evaluate commit tree reference negated => (problem.recorded server commit tree reference negated).2
  | .perform _ => []

/-- The additions of acts in order. -/
def additionsAll (problem : Problem) (server : Server) : List Act → List Addition
  | [] => []
  | deed :: deeds => problem.additions server deed ++ problem.additionsAll (problem.act server deed) deeds

theorem add_fst (problem : Problem) (fact : Fact) (database : Database) :
    (problem.add fact database).1 = problem.admits database fact := by
  rw [Problem.add]
  split
  · next hAdmits => exact hAdmits.symm
  · next hRefused => exact (Bool.not_eq_true _ ▸ hRefused).symm

theorem add_snd_of_refused {fact : Fact} (hRefused : (problem.add fact database).1 = false) :
    (problem.add fact database).2 = database := by
  rw [add_fst] at hRefused
  rw [Problem.add, hRefused]
  rfl

theorem guards_add (problem : Problem) (server : Server) (fact : Fact) :
    problem.Guards ⟨fact, (problem.add fact (server.store.database problem.database)).1, server,
      problem.perform server (.add fact)⟩ := by
  refine ⟨add_fst problem fact _, fun hRefused number => ?_⟩
  have hStart : server.ChangedAt problem.database (· = server.store.database problem.database) server :=
    .refl rfl
  have hNext : server.ChangedAt problem.database (· = server.store.database problem.database)
      (problem.perform server (.add fact)) :=
    hStart.changed fun _ => add_snd_of_refused hRefused
  by_cases hNumber : number = problem.database
  · exact hNumber ▸ hNext.here
  · exact hNext.elsewhere number hNumber

/-- The additions of one act. -/
theorem guards_additions (problem : Problem) (server : Server) (deed : Act) :
    ∀ addition ∈ problem.additions server deed, problem.Guards addition := by
  unfold additions
  split
  · split
    · exact List.forall_mem_singleton.mpr (guards_add problem server _)
    · exact fun _ hMem => absurd hMem List.not_mem_nil
  · exact (recorded_spec problem server _ _ _ _).2
  · exact (recorded_spec problem server _ _ _ _).2
  · exact fun _ hMem => absurd hMem List.not_mem_nil

/-- The additions of acts in order. -/
theorem guards_additionsAll (problem : Problem) (server : Server) (deeds : List Act) :
    ∀ addition ∈ problem.additionsAll server deeds, problem.Guards addition := by
  induction deeds generalizing server with
  | nil => exact fun _ hMem => absurd hMem List.not_mem_nil
  | cons deed deeds ih =>
      exact List.forall_mem_append.mpr ⟨guards_additions problem server deed, ih (problem.act server deed)⟩

/-! ## Declared objects -/

/-- An object is declared, and every stored text is that of a fact about declared objects. -/
structure Declared (problem : Problem) (database : Database) : Prop where
  inhabited : problem.objects database ≠ []
  covered : ∀ text ∈ database.members (problem.factsKey database),
    ∃ fact : Fact, fact.key = text ∧ ∀ arg ∈ fact.args, arg ∈ problem.objects database

/-- An act that takes no declaration back and adds no fact unasked. -/
def Act.Asks (deed : Act) : Prop :=
  deed ≠ .perform .clear ∧ ∀ state, deed ≠ .perform (.load state)

theorem mem_objects {name : String} :
    name ∈ problem.objects database ↔ name ∈ (database.fields (problem.instancesKey database)).map Prod.fst := by
  rw [objects, instances, ((perm_sortedBy _ _).map Instance.name).mem_iff, List.map_map]
  rfl

theorem ChangesOnly.objects_eq {part : String} (hChange : problem.ChangesOnly part database next)
    (hPart : part.toList.getLast? = some 's') (hOther : "instances" ≠ part) :
    problem.objects next = problem.objects database := by
  rw [objects, objects, instances, instances, instancesKey, instancesKey, hChange.fields_eq hPart hOther]

/-- What a problem admits once an object is declared is about declared objects. -/
theorem mem_objects_of_admits {fact : Fact} (hInhabited : problem.objects database ≠ [])
    (hAdmits : problem.admits database fact = true) : ∀ arg ∈ fact.args, arg ∈ problem.objects database := by
  intro arg hArg
  rw [admits, Bool.or_eq_true] at hAdmits
  rcases hAdmits with hNone | hAll
  · obtain ⟨name, hName⟩ := List.exists_mem_of_ne_nil _ hInhabited
    rw [mem_objects, List.isEmpty_iff.mp hNone] at hName
    exact absurd hName List.not_mem_nil
  · exact mem_objects.mpr (List.contains_iff_mem.mp (List.all_eq_true.mp hAll arg hArg))

namespace Declared

variable (hDeclared : problem.Declared database)

include hDeclared

/-- A change that takes no declaration back, and adds only texts of facts about declared objects. -/
theorem change (hObjects : ∀ name ∈ problem.objects database, name ∈ problem.objects next)
    (hMembers : ∀ text ∈ next.members (problem.factsKey next), text ∈ database.members (problem.factsKey database) ∨
      ∃ fact : Fact, fact.key = text ∧ ∀ arg ∈ fact.args, arg ∈ problem.objects database) :
    problem.Declared next where
  inhabited := by
    obtain ⟨name, hName⟩ := List.exists_mem_of_ne_nil _ hDeclared.inhabited
    exact List.ne_nil_of_mem (hObjects name hName)
  covered text hText := by
    obtain ⟨fact, hKey, hArgs⟩ := (hMembers text hText).elim (hDeclared.covered text) id
    exact ⟨fact, hKey, fun arg hArg => hObjects arg (hArgs arg hArg)⟩

theorem declare (object : Instance) : problem.Declared (problem.declare object database) := by
  have hChange : problem.ChangesOnly "instances" database (problem.declare object database) :=
    changesOnly_declare object
  have hFields : (problem.declare object database).fields (problem.instancesKey (problem.declare object database)) =
      Store.put object.name object.type (database.fields (problem.instancesKey database)) := by
    rw [instancesKey, hChange.name_eq (by decide)]
    exact Database.fields_setField_self _ _ _ _
  refine hDeclared.change (fun name hName => ?_) fun text hText => Or.inl ?_
  · rw [mem_objects] at hName ⊢
    rw [hFields]
    exact Store.mem_keys_put hName
  · rwa [factsKey, hChange.members_eq (by decide) (by decide)] at hText

theorem insert {fact : Fact} (hAdmits : problem.admits database fact = true) :
    problem.Declared (problem.insert fact database) := by
  refine hDeclared.change (fun name hName => ?_) fun text hText => ?_
  · rwa [(changesOnly_insert fact).objects_eq (by decide) (by decide)]
  · rcases mem_members_insert_iff.mp hText with hOld | rfl
    · exact Or.inl hOld
    · exact Or.inr ⟨fact, rfl, mem_objects_of_admits hDeclared.inhabited hAdmits⟩

theorem remove (fact : Fact) : problem.Declared (problem.remove fact database) := by
  have hChange : problem.ChangesOnly "predicates" database (problem.remove fact database) := changesOnly_remove fact
  have hMembers : (problem.remove fact database).members (problem.factsKey (problem.remove fact database)) =
      (database.members (problem.factsKey database)).filter (· != fact.key) := by
    rw [factsKey, hChange.name_eq (by decide)]
    exact Database.members_removeMember_self _ _ _
  refine hDeclared.change (fun name hName => ?_) fun text hText => Or.inl ?_
  · rwa [hChange.objects_eq (by decide) (by decide)]
  · rw [hMembers] at hText
    exact List.mem_of_mem_filter hText

theorem write (assignment : Assignment) : problem.Declared (problem.write assignment database) := by
  have hChange : problem.ChangesOnly "functions" database (problem.write assignment database) :=
    changesOnly_write assignment
  refine hDeclared.change (fun name hName => ?_) fun text hText => Or.inl ?_
  · rwa [hChange.objects_eq (by decide) (by decide)]
  · rwa [factsKey, hChange.members_eq (by decide) (by decide)] at hText

end Declared

theorem stable_declared (problem : Problem) : problem.Stable problem.Declared where
  declare object hDeclared := hDeclared.declare object
  insert hDeclared hAdmits := hDeclared.insert hAdmits
  remove fact hDeclared := hDeclared.remove fact
  write assignment hDeclared := hDeclared.write assignment

/-! ## Acts in order -/

/-- A server on which the facts of a problem are about declared objects. -/
def DeclaredOn (problem : Problem) (server : Server) : Prop :=
  problem.Declared (server.store.database problem.database)

/-- One act. -/
theorem DeclaredOn.act (hDeclared : problem.DeclaredOn server) {deed : Act} (hAsks : deed.Asks) :
    problem.DeclaredOn (problem.act server deed) := by
  have hStart : server.ChangedAt problem.database problem.Declared server := .refl hDeclared
  have hLoad {database : Database} {state : Snapshot} (hDeed : deed = .perform (.load state))
      (_ : problem.Declared database) : problem.Declared (problem.load state database) :=
    absurd hDeed (hAsks.2 state)
  exact ((stable_declared problem).changedAt_act hStart hLoad hAsks.1).here

/-- Acts in order. -/
theorem DeclaredOn.actAll (hDeclared : problem.DeclaredOn server) {deeds : List Act}
    (hAsks : ∀ deed ∈ deeds, deed.Asks) : problem.DeclaredOn (problem.actAll server deeds) := by
  induction deeds generalizing server with
  | nil => exact hDeclared
  | cons deed deeds ih =>
      obtain ⟨hFirst, hRest⟩ := List.forall_mem_cons.mp hAsks
      exact ih (hDeclared.act hFirst) hRest

/-- Once an object is declared, and the stored facts are about declared objects, they are so after any acts that
neither load nor clear.  Each addition, also one during an evaluation, is done exactly if the problem admits the
fact, and leaves the store as it is otherwise; and listing the additions of an evaluation changes nothing. -/
theorem declaredOn_actAll (problem : Problem) :
    (∀ {server : Server}, problem.DeclaredOn server → ∀ {deeds : List Act}, (∀ deed ∈ deeds, deed.Asks) →
        problem.DeclaredOn (problem.actAll server deeds)) ∧
      (∀ (server : Server) (deeds : List Act), ∀ addition ∈ problem.additionsAll server deeds,
        problem.Guards addition) ∧
      ∀ (server : Server) (commit : Bool) (tree : Tree) (reference : Int) (negated : Bool),
        (problem.recorded server commit tree reference negated).1 =
          problem.seen server commit tree reference negated :=
  ⟨fun hDeclared _ hAsks => hDeclared.actAll hAsks, guards_additionsAll problem,
    fun server commit tree reference negated => (recorded_spec problem server commit tree reference negated).1⟩

/-- Here additions are refused directly and within an effect, whose other part is made true. -/
theorem declaredOn_actAll_refused :
    let problem : Problem := ⟨0, some "n"⟩
    let server : Server := ⟨[(0, [("plantree:n:instances", .table [("a", "object")]),
      ("plantree:n:predicates", .set ["(p a)"])])], true⟩
    let effect := Tree.ofCondition (some (.conjunction [.atom ⟨"q", [.object "c"]⟩, .atom ⟨"q", [.object "a"]⟩])) []
    let deeds : List Act := [.perform (.add ⟨"p", ["b"]⟩), .perform (.declare ⟨"b", "object"⟩),
      .perform (.add ⟨"p", ["b"]⟩), .evaluate true effect 0 false]
    let next := problem.actAll server deeds
    problem.DeclaredOn server ∧ problem.DeclaredOn next ∧
      ((problem.additionsAll server deeds).map fun addition => (addition.fact.key, addition.done)) =
        [("(p b)", false), ("(p b)", true), ("(q c)", false), ("(q a)", true)] ∧
      (next.store.database 0).members (problem.factsKey (next.store.database 0)) = ["(p a)", "(p b)", "(q a)"] := by
  intro problem server effect deeds next
  have hDeclared : problem.DeclaredOn server := by
    refine ⟨?_, fun text hText => ⟨⟨"p", ["a"]⟩, ?_, ?_⟩⟩
    · exact List.ne_nil_of_mem (mem_objects.mpr (List.mem_singleton.mpr rfl) : "a" ∈ _)
    · exact (List.mem_singleton.mp hText).symm
    · exact List.forall_mem_singleton.mpr (mem_objects.mpr (List.mem_singleton.mpr rfl))
  have hAsks : ∀ deed ∈ deeds, deed.Asks := by
    simp [deeds, Act.Asks]
  exact ⟨hDeclared, (declaredOn_actAll problem).1 hDeclared hAsks, by decide +kernel, by decide +kernel⟩

end Problem
end PlanLogic
