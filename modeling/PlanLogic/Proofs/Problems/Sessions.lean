import PlanLogic.Problem.Session
import PlanLogic.Proofs.Problems.Loading
import PlanLogic.Proofs.Problems.Separation
import PlanLogic.Proofs.Store.Laws

/-!
# Problems in any lawful store

A problem in a store that keeps the laws is evaluated as it is on a server with the same values, in whatever order the
store gives them.  No command is refused for the kind of a value, because every key has values of the kind that it is
used with; no number is illegible; and a store that is out of reach fails where the server does.
-/

namespace PlanLogic

/-- A database that the program has filled: values of the kinds that their keys are used with, tables without two
fields of one name, and numbers that can be read. -/
structure Database.Tidy (database : Database) : Prop where
  kept : Problem.WellKept database
  names : Contents.NamesOnce database.get?
  numbers : ∀ name, ∀ field ∈ database.fields (Problem.keyOf name "functions"),
    (Problem.storedNumber? field.2).isSome = true

namespace Database.Tidy

variable {problem : Problem} {database : Database}

theorem empty : Tidy [] where
  kept _ _ hFound := absurd hFound (Option.some_ne_none _).symm
  names _ := List.nodup_nil
  numbers _ _ hMem := absurd hMem List.not_mem_nil

variable (hTidy : database.Tidy)

include hTidy

/-- A change to one key. -/
theorem change {next : Database} {key : String} (hKept : Problem.WellKept next)
    (hOther : ∀ other, other ≠ key → next.get? other = database.get? other)
    (hNames : ((next.fields key).map Prod.fst).Nodup)
    (hNumbers : ∀ name, key = Problem.keyOf name "functions" →
      ∀ field ∈ next.fields key, (Problem.storedNumber? field.2).isSome = true) : next.Tidy where
  kept := hKept
  names other := by
    by_cases hKey : other = key
    · exact hKey ▸ hNames
    · have hFields : Contents.fields next.get? other = Contents.fields database.get? other := by
        rw [Contents.fields, Contents.fields, hOther other hKey]
      rw [hFields]
      exact hTidy.names other
  numbers name := by
    by_cases hKey : Problem.keyOf name "functions" = key
    · exact hKey ▸ hNumbers name hKey.symm
    · have hFields : next.fields (Problem.keyOf name "functions") =
          database.fields (Problem.keyOf name "functions") := by
        rw [fields, fields, hOther _ hKey]
      rw [hFields]
      exact hTidy.numbers name

/-- A change to a key that has a set or nothing afterwards, or what it had. -/
theorem change_set {next : Database} {key : String} (hKept : Problem.WellKept next)
    (hOther : ∀ other, other ≠ key → next.get? other = database.get? other)
    (hValue : ∀ value, next.get? key = some value → value.kind = .set) : next.Tidy := by
  have hNone : next.fields key = [] := by
    rw [fields]
    cases hFound : next.get? key with
    | none => rfl
    | some value =>
        obtain ⟨members, rfl⟩ := StoredValue.exists_set (hValue value hFound)
        rfl
  refine hTidy.change hKept hOther (hNone ▸ List.nodup_nil) fun _ _ field hMem => ?_
  rw [hNone] at hMem
  exact absurd hMem List.not_mem_nil

theorem insert (fact : Fact) : (problem.insert fact database).Tidy :=
  have hKept : Problem.WellKept (problem.insert fact database) := hTidy.kept.insert fact
  hTidy.change_set hKept (Problem.changesOnly_insert fact) fun _ hFound => hKept.kind_eq (.facts _) hFound

theorem remove (fact : Fact) : (problem.remove fact database).Tidy :=
  have hKept : Problem.WellKept (problem.remove fact database) := hTidy.kept.remove fact
  hTidy.change_set hKept (Problem.changesOnly_remove fact) fun _ hFound => hKept.kind_eq (.facts _) hFound

/-- A change of one field of a table. -/
theorem setField {key name value : String} (hKept : Problem.WellKept (database.setField key name value))
    (hNumber : ∀ other, key = Problem.keyOf other "functions" → (Problem.storedNumber? value).isSome = true) :
    (database.setField key name value).Tidy := by
  have hFields := fields_setField_self database key name value
  refine hTidy.change hKept (fun _ hOther => get?_setField_ne hOther name value) ?_ fun other hKey field hField => ?_
  · rw [hFields]
    exact Store.nodup_keys_put (hTidy.names key) name value
  · rw [hFields] at hField
    rcases Store.mem_put hField with rfl | hOld
    · exact hNumber other hKey
    · exact hTidy.numbers other field (hKey ▸ hOld)

theorem write (assignment : Assignment) : (problem.write assignment database).Tidy :=
  hTidy.setField (hTidy.kept.write assignment) fun _ _ => by
    rw [Problem.storedNumber?, Decimal.fullText, Decimal.numeral?_text]
    rfl

theorem declare (object : Instance) : (problem.declare object database).Tidy :=
  hTidy.setField (hTidy.kept.declare object) fun _ hKey =>
    absurd (Problem.keyOf_injective (by decide) (by decide) hKey).2 (by decide)

theorem activate (name : String) : (Problem.activate database name).Tidy := by
  have hActive : (Problem.activate database name).get? Problem.activeKey = some (.text name) := get?_set_self _ _ _
  have hNone : (Problem.activate database name).fields Problem.activeKey = [] := by
    rw [fields, hActive]
    rfl
  refine hTidy.change (hTidy.kept.activate name) (fun _ hOther => get?_set_ne hOther _) (hNone ▸ List.nodup_nil)
    fun _ _ field hMem => ?_
  rw [hNone] at hMem
  exact absurd hMem List.not_mem_nil

omit hTidy in
/-- Everything leaves databases tidy that changes them, other than clearing a namespace. -/
theorem lasting : Problem.Lasting Tidy where
  activate name hTidy := hTidy.activate name
  declare _ _ object hTidy := hTidy.declare object
  insert _ _ fact hTidy := hTidy.insert fact
  remove _ _ fact hTidy := hTidy.remove fact
  write _ _ assignment hTidy := hTidy.write assignment

end Database.Tidy

namespace Problem

variable {σ : Type}

/-! ## Sessions that cannot reach the store -/

namespace Session

theorem bind_ok {problem : Problem} {observed middle : Observed σ} {session : Session σ α} {next : α → Session σ β}
    {answer : α} (hFirst : session problem observed = .ok answer middle) :
    (session >>= next) problem observed = next answer problem middle := by
  show EStateM.bind (session problem) _ observed = _
  rw [EStateM.bind, hFirst]

/-- A session ends because the store is out of reach, and leaves it as it was. -/
def Fails (problem : Problem) (observed : Observed σ) (session : Session σ α) : Prop :=
  ∃ message, session problem observed = .error (.store (.unreachable message)) observed

namespace Fails

variable {problem : Problem} {observed : Observed σ}

theorem bind {session : Session σ α} (hFails : Fails problem observed session) (next : α → Session σ β) :
    Fails problem observed (session >>= next) := by
  obtain ⟨message, hFirst⟩ := hFails
  refine ⟨message, ?_⟩
  show EStateM.bind (session problem) _ observed = _
  rw [EStateM.bind, hFirst]

variable [StoreService σ] [LawfulStore σ] (hDown : ¬ LawfulStore.reachable observed.state)

include hDown

theorem ask (query : Query α) : Fails problem observed (Session.ask query : Session σ α) := by
  obtain ⟨message, hAsk⟩ := LawfulStore.ask_unreachable problem.database query hDown
  exact ⟨message, by rw [Session.ask, hAsk]⟩

theorem change (change : Change) : Fails problem observed (Session.change change : Session σ Unit) := by
  obtain ⟨message, hChange⟩ := LawfulStore.change_unreachable problem.database change hDown
  exact ⟨message, by rw [Session.change, hChange]⟩

/-- A command about a part of the problem; the namespace has to be asked for unless the problem has one of its own. -/
theorem key_bind (part : String) {next : String → Session σ α} (hNext : ∀ key, Fails problem observed (next key)) :
    Fails problem observed (Session.key part >>= next) := by
  cases hFixed : problem.fixed with
  | some name =>
      have hName : (Session.name : Session σ String) problem observed = .ok name observed := by
        rw [Session.name, hFixed]
        rfl
      have hKey : (Session.key part : Session σ String) problem observed = .ok (keyOf name part) observed :=
        (Session.bind_ok hName).trans rfl
      obtain ⟨message, hFails⟩ := hNext (keyOf name part)
      exact ⟨message, (Session.bind_ok hKey).trans hFails⟩
  | none =>
      have hName : Fails problem observed (Session.name : Session σ String) := by
        obtain ⟨message, hActive⟩ := (ask hDown (.text activeKey)).bind fun found =>
          (pure (found.getD defaultNamespace) : Session σ String)
        refine ⟨message, ?_⟩
        rw [Session.name, hFixed]
        exact hActive
      exact (hName.bind _).bind next

end Fails
end Session

/-! ## Stores that keep the same values -/

variable [StoreService σ] [LawfulStore σ]

/-- A store has come as far as a server: both can be reached or neither, they keep the same values but for their
order, as the program leaves them, and the same diagnostics were reported. -/
structure Tracks (problem : Problem) (here : Observed Server) (there : Observed σ) : Prop where
  reachable : here.state.reachable = true ↔ LawfulStore.reachable there.state
  contents : (LawfulStore.contents there.state problem.database).Same
    (here.state.store.database problem.database).get?
  tidy : (here.state.store.database problem.database).Tidy
  diagnostics : there.diagnostics = here.diagnostics

namespace Tracks

variable {problem : Problem} {here : Observed Server} {there : Observed σ} (hTracks : problem.Tracks here there)

include hTracks

/-- A question that looks for the kind of values that its key is used with. -/
theorem ask (hUp : here.state.reachable = true) {query : Query α}
    (hFits : Contents.Fits (here.state.store.database problem.database).get? query) :
    ∃ answer, (Session.ask query : Session σ α) problem there = .ok answer there ∧
      Contents.Answers (here.state.store.database problem.database).get? query answer := by
  obtain ⟨answer, hAsk, hAnswer⟩ :=
    LawfulStore.ask_answers (hTracks.reachable.mp hUp) (hTracks.contents.fits hFits)
  exact ⟨answer, by rw [Session.ask, hAsk], hTracks.contents.answers hTracks.tidy.names hAnswer⟩

/-- A question about a key that is used with the kind of values that it is meant for. -/
theorem fits (query : Query α) {key : String} {kind : StoredKind} (hSubject : query.subject? = some (key, kind))
    (hUsed : UsedAs key kind) : Contents.Fits (here.state.store.database problem.database).get? query := by
  intro found other hSame
  obtain ⟨rfl, rfl⟩ := Prod.mk.inj (Option.some.inj (hSubject.symm.trans hSame))
  exact fun value hValue => hTracks.tidy.kept.kind_eq hUsed hValue

theorem name (hUp : here.state.reachable = true) :
    (Session.name : Session σ String) problem there =
      .ok (problem.name (here.state.store.database problem.database)) there := by
  rw [Session.name, Problem.name]
  cases problem.fixed with
  | some name => rfl
  | none =>
      obtain ⟨found, hAsk, hFound⟩ := hTracks.ask hUp (hTracks.fits (.text activeKey) rfl .active)
      refine (Session.bind_ok hAsk).trans ?_
      rw [show found = _ from hFound]
      rfl

theorem key (hUp : here.state.reachable = true) (part : String) :
    (Session.key part : Session σ String) problem there =
      .ok (keyOf (problem.name (here.state.store.database problem.database)) part) there :=
  (Session.bind_ok (hTracks.name hUp)).trans rfl

/-- A change of a key that is used with the kind of values that it is meant for. -/
theorem change (hUp : here.state.reachable = true) {change : Change}
    (hFits : Contents.FitsChange (here.state.store.database problem.database).get? change)
    {step : Database → Database}
    (hStep : step (here.state.store.database problem.database) =
      (here.state.store.database problem.database).after change)
    (hTidy : (step (here.state.store.database problem.database)).Tidy) :
    ∃ next, (Session.change change : Session σ Unit) problem there = .ok () { there with state := next } ∧
      problem.Tracks
        { here with state :=
          { here.state with store := here.state.store.onDatabase problem.database step } }
        { there with state := next } := by
  obtain ⟨next, hChange, hReachable, hHere, hElsewhere, -⟩ :=
    LawfulStore.change_result (hTracks.reachable.mp hUp) (hTracks.contents.fitsChange hFits)
  refine ⟨next, by rw [Session.change, hChange], ⟨fun _ => hReachable, fun _ => hUp⟩, fun key => ?_, ?_,
    hTracks.diagnostics⟩
  · rw [Store.database_onDatabase_self, hStep]
    by_cases hKey : key = change.key
    · rw [hKey, Database.get?_after_self _ hFits]
      exact StoredValue.rel_trans hHere (hTracks.contents.result hTracks.tidy.names change)
    · rw [hElsewhere key hKey, Database.get?_after_ne _ hKey]
      exact hTracks.contents key
  · rwa [Store.database_onDatabase_self]

end Tracks

/-- A run on a server and a session in a store end alike: with the same answer, which has a property, or because
neither the server nor the store can be reached. -/
inductive EndAlike (problem : Problem) (post : α → Prop) :
    EStateM.Result Unreachable (Observed Server) α → EStateM.Result Trouble (Observed σ) α → Prop
  | ok {answer : α} {here : Observed Server} {there : Observed σ} (hPost : post answer)
      (hTracks : problem.Tracks here there) : EndAlike problem post (.ok answer here) (.ok answer there)
  | error {message : String} {here : Observed Server} {there : Observed σ} (hTracks : problem.Tracks here there) :
      EndAlike problem post (.error .serverDown here) (.error (.store (.unreachable message)) there)

/-- A run on a server and a session in a store that keeps the same values. -/
def Together (problem : Problem) (post : α → Prop) (run : Run α) (session : Session σ α) : Prop :=
  ∀ here there, problem.Tracks here there → problem.EndAlike post (run problem here) (session problem there)

/-- The order of the stored fields does not matter for the declared objects. -/
theorem sortedBy_instances {fields others : List (String × String)} (hPerm : fields.Perm others)
    (hNames : (others.map Prod.fst).Nodup) :
    sortedBy Instance.name (fields.map fun field => ⟨field.1, field.2⟩) =
      sortedBy Instance.name (others.map fun field => ⟨field.1, field.2⟩) := by
  have hDistinct {entries : List (String × String)} (hKeys : (entries.map Prod.fst).Nodup) :
      ((entries.map fun field => (⟨field.1, field.2⟩ : Instance)).map Instance.name).Nodup := by
    rwa [List.map_map]
  refine eq_of_perm_of_pairwise Instance.name ?_ (pairwise_sortedBy (hDistinct ?_))
    (pairwise_sortedBy (hDistinct hNames))
  · exact (perm_sortedBy _ _).trans ((hPerm.map _).trans (perm_sortedBy _ _).symm)
  · exact (hPerm.map Prod.fst).nodup_iff.mpr hNames

namespace Together

variable {problem : Problem}

theorem pure {post : α → Prop} {answer : α} (hPost : post answer) :
    problem.Together post (Pure.pure answer : Run α) (Pure.pure answer : Session σ α) :=
  fun _ _ hTracks => .ok hPost hTracks

theorem bind {middle : α → Prop} {post : β → Prop} {run : Run α} {session : Session σ α} {next : α → Run β}
    {sessionNext : α → Session σ β} (hFirst : problem.Together middle run session)
    (hNext : ∀ answer, middle answer → problem.Together post (next answer) (sessionNext answer)) :
    problem.Together post (run >>= next) (session >>= sessionNext) := by
  intro here there hTracks
  have hEnd := hFirst here there hTracks
  show problem.EndAlike post (EStateM.bind (run problem) _ here) (EStateM.bind (session problem) _ there)
  rw [EStateM.bind, EStateM.bind]
  generalize run problem here = result, session problem there = other at hEnd ⊢
  cases hEnd with
  | ok hMiddle hHalfway => exact hNext _ hMiddle _ _ hHalfway
  | error hFinal => exact .error hFinal

theorem weaken {pre post : α → Prop} {run : Run α} {session : Session σ α} (hRun : problem.Together pre run session)
    (hPost : ∀ answer, pre answer → post answer) : problem.Together post run session := by
  intro here there hTracks
  have hEnd := hRun here there hTracks
  generalize run problem here = result, session problem there = other at hEnd ⊢
  cases hEnd with
  | ok hPre hFinal => exact .ok (hPost _ hPre) hFinal
  | error hFinal => exact .error hFinal

/-- A question. -/
theorem ask {question : Problem → Database → α} {session : Session σ α}
    (hUp : ∀ {here there}, problem.Tracks here there → here.state.reachable = true →
      session problem there = .ok (question problem (here.state.store.database problem.database)) there)
    (hDown : ∀ {there}, ¬ LawfulStore.reachable there.state → Session.Fails problem there session) :
    problem.Together (fun _ => True) (Run.ask question) session := by
  intro here there hTracks
  rw [Run.ask, Server.ask]
  by_cases hReachable : here.state.reachable = true
  · rw [if_pos hReachable, hUp hTracks hReachable]
    exact .ok trivial hTracks
  · obtain ⟨message, hFails⟩ := hDown (fun hThere => hReachable (hTracks.reachable.mpr hThere))
    rw [if_neg hReachable, hFails]
    exact .error hTracks

/-- A change of a part of the problem. -/
theorem change {step : Problem → Database → Database} {part : String} {change : String → Change}
    (hStep : ∀ database : Database,
      step problem database = database.after (change (keyOf (problem.name database) part)))
    (hUsed : ∀ name kind, (change (keyOf name part)).kind? = some kind →
      UsedAs (change (keyOf name part)).key kind)
    (hTidy : ∀ {database : Database}, database.Tidy → (step problem database).Tidy) :
    problem.Together (fun _ => True) (Run.change step)
      (do Session.change (change (← Session.key part)) : Session σ Unit) := by
  intro here there hTracks
  rw [Run.change, Server.change]
  by_cases hUp : here.state.reachable = true
  · obtain ⟨next, hChange, hNext⟩ := hTracks.change hUp
      (fun kind hKind value hValue => hTracks.tidy.kept.kind_eq (hUsed _ kind hKind) hValue)
      (hStep (here.state.store.database problem.database)) (hTidy hTracks.tidy)
    rw [if_pos hUp, Session.bind_ok (hTracks.key hUp part), hChange]
    exact .ok trivial hNext
  · have hDown : ¬ LawfulStore.reachable there.state := fun hThere => hUp (hTracks.reachable.mpr hThere)
    obtain ⟨message, hFails⟩ := Session.Fails.key_bind hDown part fun key => .change hDown (change key)
    rw [if_neg hUp, hFails]
    exact .error hTracks

/-! ### Questions and changes -/

theorem holds (fact : Fact) :
    problem.Together (fun _ => True) (FactBase.holds fact : Run Bool) (Session.holds fact : Session σ Bool) := by
  refine ask (fun {here there} hTracks hUp => ?_) fun hDown => .key_bind hDown _ fun key => .ask hDown _
  let database := here.state.store.database problem.database
  obtain ⟨answer, hAsk, hAnswer⟩ :=
    hTracks.ask hUp (hTracks.fits (.isMember (problem.factsKey database) fact.key) rfl (.facts _))
  exact (Session.bind_ok (hTracks.key hUp _)).trans (hAsk.trans (congrArg (EStateM.Result.ok · _) hAnswer))

theorem value? (text : String) :
    problem.Together (fun _ => True) (FactBase.value? text : Run (Option Float))
      (Session.value? text : Session σ (Option Float)) := by
  refine ask (fun {here there} hTracks hUp => ?_)
    fun hDown => .key_bind hDown _ fun key => (Session.Fails.ask hDown _).bind _
  let database := here.state.store.database problem.database
  obtain ⟨answer, hAsk, hAnswer⟩ :=
    hTracks.ask hUp (hTracks.fits (.field (problem.valuesKey database) text) rfl (.values _))
  refine ((Session.bind_ok (hTracks.key hUp _)).trans (Session.bind_ok hAsk)).trans ?_
  have hFound : answer = Store.lookup? text (database.fields (problem.valuesKey database)) := hAnswer
  rw [Problem.value?, ← hFound]
  cases answer with
  | none => rfl
  | some stored =>
      have hNumber := hTracks.tidy.numbers _ _ (Store.mem_of_lookup? hFound.symm)
      obtain ⟨value, hValue⟩ := Option.isSome_iff_exists.mp hNumber
      simp only [hValue, Option.bind_some]
      rfl

theorem objects :
    problem.Together (fun _ => True) (FactBase.objects : Run (List String))
      (Session.objects : Session σ (List String)) := by
  refine ask (fun {here there} hTracks hUp => ?_)
    fun hDown => (Session.Fails.key_bind hDown _ fun key => (Session.Fails.ask hDown _).bind _).bind _
  let database := here.state.store.database problem.database
  obtain ⟨answer, hAsk, hAnswer⟩ :=
    hTracks.ask hUp (hTracks.fits (.fields (problem.instancesKey database)) rfl (.instances _))
  have hInstances : (Session.instances : Session σ (List Instance)) problem there =
      .ok (sortedBy Instance.name (answer.map fun field => ⟨field.1, field.2⟩)) there :=
    ((Session.bind_ok (hTracks.key hUp _)).trans (Session.bind_ok hAsk)).trans rfl
  refine (Session.bind_ok hInstances).trans ?_
  rw [sortedBy_instances hAnswer (hTracks.tidy.names _)]
  rfl

theorem insert (fact : Fact) :
    problem.Together (fun _ => True) (Run.change fun problem => problem.insert fact)
      (Session.insert fact : Session σ Unit) :=
  change (fun _ => rfl) (fun name kind hKind => by cases hKind; exact .facts name) fun hTidy => hTidy.insert fact

theorem remove (fact : Fact) :
    problem.Together (fun _ => True) (Run.change fun problem => problem.remove fact)
      (Session.remove fact : Session σ Unit) :=
  change (fun _ => rfl) (fun name kind hKind => by cases hKind; exact .facts name) fun hTidy => hTidy.remove fact

theorem write (assignment : Assignment) :
    problem.Together (fun _ => True) (Run.change fun problem => problem.write assignment)
      (Session.write assignment : Session σ Unit) :=
  change (fun _ => rfl) (fun name kind hKind => by cases hKind; exact .values name) fun hTidy => hTidy.write assignment

/-- Whether a fact may be added, from the names of the declared objects in any order. -/
theorem admits (fact : Fact) :
    problem.Together (fun _ => True) (Run.ask fun problem database => problem.admits database fact)
      (do
        let known ← Session.ask (.fieldNames (← Session.key "instances"))
        return known.isEmpty || fact.args.all known.contains : Session σ Bool) := by
  refine ask (fun {here there} hTracks hUp => ?_)
    fun hDown => .key_bind hDown _ fun key => (Session.Fails.ask hDown _).bind _
  let database := here.state.store.database problem.database
  obtain ⟨known, hAsk, hKnown⟩ :=
    hTracks.ask hUp (hTracks.fits (.fieldNames (problem.instancesKey database)) rfl (.instances _))
  refine ((Session.bind_ok (hTracks.key hUp _)).trans (Session.bind_ok hAsk)).trans ?_
  have hPerm : known.Perm ((database.fields (problem.instancesKey database)).map Prod.fst) := hKnown
  have hContains : known.contains = ((database.fields (problem.instancesKey database)).map Prod.fst).contains := by
    funext name
    rw [Bool.eq_iff_iff, List.contains_iff_mem, List.contains_iff_mem]
    exact hPerm.mem_iff
  rw [hPerm.isEmpty_eq, hContains]
  rfl

theorem add (fact : Fact) :
    problem.Together (fun _ => True) (FactBase.add fact : Run Bool) (Session.add fact : Session σ Bool) := by
  have hSession : (Session.add fact : Session σ Bool) = (do
      let known ← Session.ask (.fieldNames (← Session.key "instances"))
      return known.isEmpty || fact.args.all known.contains) >>= fun admitted =>
        if admitted then do Session.insert fact; return true else return false := by
    simp only [Session.add, bind_assoc, pure_bind]
  rw [hSession]
  refine (admits fact).bind fun admitted _ => ?_
  cases admitted with
  | true => exact (insert fact).bind fun _ _ => .pure trivial
  | false => exact .pure trivial

end Together

/-- Evaluation against a problem on a server and in a store that keeps the same values. -/
def tracking (problem : Problem) (commit : Bool) : Coupling commit Run (Session σ) where
  vocabulary := .everything
  closed := Vocabulary.closed_everything
  known _ := True
  Coupled := problem.Together
  pure := .pure
  bind := .bind
  weaken := .weaken
  holds _ := .holds _
  add _ _ := .add _
  remove _ _ := (Together.remove _).bind fun _ _ => .pure trivial
  value? _ := (Together.value? _).weaken fun _ _ _ => trivial
  write _ _ _ := (Together.write _).bind fun _ _ => .pure trivial
  objects _ := Together.objects.weaken fun _ _ _ _ => trivial
  report {diagnostic} _ _ hTracks :=
    .ok trivial ⟨hTracks.reachable, hTracks.contents, hTracks.tidy, congrArg (· ++ [diagnostic]) hTracks.diagnostics⟩

/-- A store that keeps the laws, and the values that a server keeps, gives the outcome that the server gives, whatever
tree is checked or made true of a problem.  Then both keep the same values again. -/
theorem evaluate_together (problem : Problem) (commit : Bool) (tree : Tree) {server : Server} {store : σ}
    (hTracks : problem.Tracks (.start server) (.start store)) :
    problem.EndAlike (fun _ => True) ((evaluate commit tree 0 false : Run Outcome) problem (.start server))
      ((evaluate commit tree 0 false : Session σ Outcome) problem (.start store)) :=
  (problem.tracking commit).evaluate (Vocabulary.covers_everything tree) 0 false _ _ hTracks

/-! ## Where the program finds such stores -/

/-- Whatever happened on a server that stored nothing at first, other than clearing: a store that can be reached
whenever the server can, and that keeps the same values but for their order, has come as far as the server. -/
theorem tracks_afterAll (problem : Problem) {reachable : Bool} {events : List Event}
    (hClears : ∀ event ∈ events, ¬ event.clears) {store : σ} :
    let server := (Server.mk .empty reachable).afterAll events
    (server.reachable = true ↔ LawfulStore.reachable store) →
      (LawfulStore.contents store problem.database).Same (server.store.database problem.database).get? →
      problem.Tracks (.start server) (.start store) := by
  intro server hReachable hContents
  have hEmpty (number : Int) : ((Server.mk .empty reachable).store.database number).Tidy := .empty
  exact ⟨hReachable, hContents, Server.forall_afterAll Database.Tidy.lasting hEmpty hClears _, rfl⟩

/-- A server has come as far as itself: the commands that are sent to it do what is done with its databases. -/
theorem tracks_self {problem : Problem} {server : Server}
    (hTidy : (server.store.database problem.database).Tidy) : problem.Tracks (.start server) (.start server) :=
  ⟨Iff.rfl, fun _ => StoredValue.rel_refl _, hTidy, rfl⟩

end Problem
end PlanLogic
