import PlanLogic.Proofs.Evaluation.Compiled
import PlanLogic.Proofs.Evaluation.Invariants
import PlanLogic.Proofs.Problems.Representation

/-!
# Problems simulate snapshots

A tree without quantifiers that was read from a text is evaluated against a problem as it is against the
snapshot that the problem represents.  The two differ in what they do with a head that has no number: the snapshot
refuses to write it, and the store would take it.  But a head is written only after its number was found, so the
difference never shows.
-/

namespace PlanLogic
namespace Problem

/-- The evaluation of a problem has come as far as that of a snapshot: the store can be reached and represents the
snapshot, the same diagnostics were reported, and `heads` still are the heads that have a number. -/
structure Abreast (problem : Problem) (heads : List Fact) (here : Observed Snapshot) (there : Observed Server) :
    Prop where
  reachable : there.state.reachable = true
  represents : problem.Represents (there.state.store.database problem.database) here.state
  heads : here.state.heads = heads
  diagnostics : there.diagnostics = here.diagnostics

/-! ## Single accesses -/

/-- A head whose text has a number has one itself. -/
theorem mem_heads_of_isSome_value? {state : Snapshot} (hSound : state.Sound) {head : Fact} (hHead : head.Spelled)
    (hFound : (state.value? head.key).isSome = true) : head ∈ state.heads := by
  rw [Snapshot.value?, Option.isSome_map, Option.isSome_iff_exists] at hFound
  obtain ⟨assignment, hAssignment⟩ := hFound
  have hMem : assignment.head ∈ state.heads := List.mem_map_of_mem (List.mem_of_find?_eq_some hAssignment)
  have hKey := List.find?_some hAssignment
  rw [beq_iff_eq] at hKey
  rwa [← Fact.key_injective (hSound.heads_writable _ hMem).spelled hHead hKey]

/-- Steps that follow an answer go on from where the answer was given. -/
theorem Run.bind_eq {run : Run α} {next : α → Run β} {problem : Problem} {observed middle : Observed Server}
    {answer : α} (hRun : run problem observed = .ok answer middle) :
    (run >>= next) problem observed = next answer problem middle := by
  show EStateM.bind _ _ observed = _
  rw [EStateM.bind, hRun]

namespace Abreast

variable {problem : Problem} {heads : List Fact} {here : Observed Snapshot} {there : Observed Server}
  (hAbreast : problem.Abreast heads here there)

include hAbreast

theorem ask_eq (question : Problem → Database → α) :
    Run.ask question problem there =
      .ok (question problem (there.state.store.database problem.database)) there := by
  rw [Run.ask, Server.ask, if_pos hAbreast.reachable]

/-- A change that the snapshot makes too. -/
theorem change (step : Problem → Database → Database) {next : Snapshot}
    (hRepresents : problem.Represents (step problem (there.state.store.database problem.database)) next)
    (hHeads : next.heads = here.state.heads) :
    ∃ after, Run.change step problem there = .ok () after ∧
      problem.Abreast heads { here with state := next } after := by
  refine ⟨{ there with state := { there.state with
    store := there.state.store.onDatabase problem.database (step problem) } }, ?_, ?_⟩
  · rw [Run.change, Server.change, if_pos hAbreast.reachable]
  · refine ⟨hAbreast.reachable, ?_, hHeads.trans hAbreast.heads, hAbreast.diagnostics⟩
    rw [Store.database_onDatabase_self]
    exact hRepresents

theorem add {fact : Fact} (hFact : fact.Writable) :
    ∃ after, Run.add fact problem there = .ok true after ∧
      problem.Abreast heads { here with state := here.state.add fact } after := by
  obtain ⟨after, hChange, hAfter⟩ := hAbreast.change (fun problem => problem.insert fact)
    (hAbreast.represents.insert hFact) (Snapshot.heads_add here.state fact)
  refine ⟨after, ?_, hAfter⟩
  -- Nothing is declared, so every fact may be added.
  rw [Run.add, Run.bind_eq (hAbreast.ask_eq _), hAbreast.represents.admits_eq_true fact, if_pos rfl,
    Run.bind_eq hChange]
  rfl

/-- A change that is always possible. -/
theorem change_true (step : Problem → Database → Database) {next : Snapshot}
    (hRepresents : problem.Represents (step problem (there.state.store.database problem.database)) next)
    (hHeads : next.heads = here.state.heads) :
    ∃ after, (do Run.change step; return true : Run Bool) problem there = .ok true after ∧
      problem.Abreast heads { here with state := next } after := by
  obtain ⟨after, hChange, hAfter⟩ := hAbreast.change step hRepresents hHeads
  refine ⟨after, ?_, hAfter⟩
  rw [Run.bind_eq hChange]
  rfl

theorem remove {fact : Fact} (hFact : fact.Spelled) :
    ∃ after, (FactBase.remove fact : Run Bool) problem there = .ok true after ∧
      problem.Abreast heads { here with state := here.state.remove fact } after :=
  hAbreast.change_true _ (hAbreast.represents.remove hFact) (Snapshot.heads_remove here.state fact)

/-- The snapshot takes a number for a head that has one, and so does the store. -/
theorem write {assignment : Assignment} (hKnown : assignment.head ∈ heads) :
    here.state.assigns assignment.head = true ∧
      ∃ after, (FactBase.write assignment : Run Bool) problem there = .ok true after ∧
        problem.Abreast heads { here with state := here.state.write assignment } after := by
  rw [← hAbreast.heads] at hKnown
  have hAssigns := Snapshot.assigns_iff.mpr hKnown
  have hRepresents := hAbreast.represents.write (hAbreast.represents.sound.heads_writable _ hKnown)
  rw [Snapshot.assign, if_pos hAssigns] at hRepresents
  exact ⟨hAssigns, hAbreast.change_true _ hRepresents (Snapshot.heads_write here.state assignment)⟩

end Abreast

/-- The runs against a snapshot and against a problem that represents it. -/
def representing (problem : Problem) (heads : List Fact) (commit : Bool) : Coupling commit Snapshot.Run Run where
  vocabulary := Vocabulary.writable False
  closed := Vocabulary.closed_writable False
  known head := head ∈ heads
  Coupled post run other := ∀ here there, problem.Abreast heads here there →
    ∃ after, other problem there = .ok (run here).1 after ∧ post (run here).1 ∧
      problem.Abreast heads (run here).2 after
  pure hPost _ there hAbreast := ⟨there, rfl, hPost, hAbreast⟩
  bind hRun hNext here there hAbreast := by
    obtain ⟨middle, hOther, hMiddle, hHalfway⟩ := hRun here there hAbreast
    obtain ⟨after, hOtherNext, hPost, hFinal⟩ := hNext _ hMiddle _ _ hHalfway
    exact ⟨after, (Run.bind_eq hOther).trans hOtherNext, hPost, hFinal⟩
  weaken hRun hPost here there hAbreast := by
    obtain ⟨after, hOther, hPre, hFinal⟩ := hRun here there hAbreast
    exact ⟨after, hOther, hPost _ hPre, hFinal⟩
  holds hFact here there hAbreast := by
    refine ⟨there, (hAbreast.ask_eq _).trans ?_, trivial, hAbreast⟩
    rw [hAbreast.represents.holds_eq hFact.spelled]
    rfl
  add _ hFact here there hAbreast := by
    obtain ⟨after, hAdd, hAfter⟩ := hAbreast.add hFact
    exact ⟨after, hAdd, trivial, hAfter⟩
  remove _ hFact here there hAbreast := by
    obtain ⟨after, hRemove, hAfter⟩ := hAbreast.remove hFact.spelled
    exact ⟨after, hRemove, trivial, hAfter⟩
  value? hHead here there hAbreast := by
    refine ⟨there, (hAbreast.ask_eq _).trans ?_, ?_, hAbreast⟩
    · rw [hAbreast.represents.value?_eq]
      rfl
    · rw [← hAbreast.heads]
      exact mem_heads_of_isSome_value? hAbreast.represents.sound hHead
  write _ _ hKnown here there hAbreast := by
    obtain ⟨hAssigns, after, hWrite, hAfter⟩ := hAbreast.write hKnown
    refine ⟨after, hWrite.trans ?_, trivial, hAfter⟩
    rw [← hAssigns]
    rfl
  objects hNone := hNone.elim
  report {diagnostic} here there hAbreast := by
    refine ⟨there.note diagnostic, rfl, trivial, hAbreast.reachable, hAbreast.represents, hAbreast.heads, ?_⟩
    exact congrArg (· ++ [diagnostic]) hAbreast.diagnostics

/-! ## Sequences of evaluations -/

end Problem

/-- The replies of a snapshot when trees are evaluated in order, each to check or to make it true. -/
def Snapshot.replies (state : Snapshot) : List (Bool × Tree) → List (Outcome × Observed Snapshot)
  | [] => []
  | (commit, tree) :: steps =>
    let reply := state.evaluated commit tree
    reply :: reply.2.state.replies steps

/-- The replies of a problem when trees are evaluated in order. -/
def Problem.replies (problem : Problem) (server : Server) :
    List (Bool × Tree) → List (Except Unreachable Outcome × Observed Server)
  | [] => []
  | (commit, tree) :: steps =>
    let reply := problem.evaluated server commit tree
    reply :: problem.replies reply.2.state steps

namespace Problem

/-- The reply of a problem is that of a snapshot: the same outcome, the same lines about malformed parts, and a
store that afterwards holds what the snapshot holds. -/
structure SameReply (problem : Problem) (here : Outcome × Observed Snapshot)
    (there : Except Unreachable Outcome × Observed Server) : Prop where
  outcome : there.1 = .ok here.1
  reports : there.2.reports = here.2.reports
  stored : ∃ found, there.2.state.ask problem.database problem.snapshot = .ok (.ok found) ∧
    found.facts.Perm here.2.state.facts ∧ found.assignments.Perm here.2.state.assignments

theorem perm_sortedBy (key : α → String) (xs : List α) : (sortedBy key xs).Perm xs :=
  List.mergeSort_perm xs _

namespace Abreast

variable {problem : Problem} {heads : List Fact} {state : Snapshot} {server : Server}

theorem sameReply {here : Observed Snapshot} {there : Observed Server} (hAbreast : problem.Abreast heads here there)
    (outcome : Outcome) : problem.SameReply (outcome, here) (.ok outcome, there) where
  outcome := rfl
  reports := by
    show there.reports = here.reports
    rw [Observed.reports, Observed.reports, hAbreast.diagnostics]
  stored := by
    refine ⟨⟨sortedBy Fact.key here.state.facts,
      sortedBy (fun assignment => assignment.head.key) here.state.assignments⟩, ?_, perm_sortedBy _ _,
      perm_sortedBy _ _⟩
    rw [Server.ask, if_pos hAbreast.reachable, hAbreast.represents.snapshot_eq]

/-- One evaluation: the replies are the same, and the next evaluation starts from states that correspond again. -/
theorem evaluated (hAbreast : problem.Abreast heads (.start state) (.start server)) {tree : Tree}
    (hTree : tree.Compiled) (hFree : tree.QuantifierFree) (commit : Bool) :
    problem.SameReply (state.evaluated commit tree) (problem.evaluated server commit tree) ∧
      problem.Abreast heads (.start (state.evaluated commit tree).2.state)
        (.start (problem.evaluated server commit tree).2.state) := by
  have hCovers : (representing problem heads commit).vocabulary.Covers tree :=
    (Vocabulary.covers_of_compiled hTree).of_quantifierFree hFree
  obtain ⟨after, hOther, -, hAfter⟩ := (representing problem heads commit).evaluate hCovers 0 false _ _ hAbreast
  have hReply : problem.evaluated server commit tree = (.ok (state.evaluated commit tree).1, after) := by
    rw [Problem.evaluated, hOther]
    rfl
  rw [hReply]
  exact ⟨hAfter.sameReply _, hAfter.reachable, hAfter.represents, hAfter.heads, rfl⟩

/-- Any number of evaluations. -/
theorem replies (hAbreast : problem.Abreast heads (.start state) (.start server)) {steps : List (Bool × Tree)}
    (hSteps : ∀ step ∈ steps, step.2.Compiled ∧ step.2.QuantifierFree) :
    List.Forall₂ problem.SameReply (state.replies steps) (problem.replies server steps) := by
  induction steps generalizing state server with
  | nil => exact .nil
  | cons step steps ih =>
      obtain ⟨commit, tree⟩ := step
      obtain ⟨hTree, hFree⟩ := hSteps _ List.mem_cons_self
      obtain ⟨hReply, hNext⟩ := hAbreast.evaluated hTree hFree commit
      exact .cons hReply (ih hNext fun later hLater => hSteps later (List.mem_cons_of_mem _ hLater))

end Abreast

/-- After a document is loaded into a namespace without keys, a problem replies to evaluations of trees without
quantifiers as the snapshot of the document does. -/
theorem replies_load {text : String} {state : Snapshot} (hText : Snapshot.ofText text = .ok state)
    {problem : Problem} {server loaded : Server}
    (hNone : ∀ part ∈ ["instances", "predicates", "functions"],
      let database := server.store.database problem.database
      database.get? (keyOf (problem.name database) part) = none)
    (hLoad : server.change problem.database (problem.load state) = .ok loaded) {steps : List (Bool × Tree)}
    (hSteps : ∀ step ∈ steps, step.2.Compiled ∧ step.2.QuantifierFree) :
    List.Forall₂ problem.SameReply (state.replies steps) (problem.replies loaded steps) := by
  rw [Server.change] at hLoad
  split at hLoad
  · next hReachable =>
      obtain rfl := Except.ok.inj hLoad
      have hRepresents := Represents.load (Snapshot.sound_of_ofText hText) hNone
      have hAbreast : problem.Abreast state.heads (.start state) (.start { server with
          store := server.store.onDatabase problem.database (problem.load state) }) := by
        refine ⟨hReachable, ?_, rfl, rfl⟩
        rw [Observed.start, Store.database_onDatabase_self]
        exact hRepresents
      exact hAbreast.replies hSteps
  · exact absurd hLoad (by simp)

/-- Here an effect is made true and then asked for, under the active namespace of a database that holds another
problem. -/
theorem replies_load_active :
    let state : Snapshot := ⟨[⟨"p", ["a"]⟩], [⟨⟨"f", ["a"]⟩, 0.5⟩]⟩
    let problem : Problem := ⟨0, none⟩
    let server : Server := ⟨[(0, [("plantree:state:namespace", .text "home"),
      ("plantree:other:predicates", .set ["(x)"])])], true⟩
    let loaded : Server := { server with store := server.store.onDatabase 0 (problem.load state) }
    let condition := Condition.conjunction [.negation (.atom ⟨"p", [.object "a"]⟩), .atom ⟨"q", [.slot 0]⟩,
      .update .increase ⟨"f", [.object "a"]⟩ (.number 2)]
    let effect := Tree.ofCondition (some condition) ["b"]
    Snapshot.ofText "(p a)\n(= (f a) 0.5)" = .ok state ∧
      (∀ part ∈ ["instances", "predicates", "functions"],
        let database := server.store.database problem.database
        database.get? (keyOf (problem.name database) part) = none) ∧
      server.change problem.database (problem.load state) = .ok loaded ∧
      (∀ step ∈ [(true, effect), (false, effect)], step.2.Compiled ∧ step.2.QuantifierFree) ∧
      List.Forall₂ problem.SameReply (state.replies [(true, effect), (false, effect)])
        (problem.replies loaded [(true, effect), (false, effect)]) := by
  intro state problem server loaded condition effect
  have hState : Snapshot.ofText "(p a)\n(= (f a) 0.5)" = .ok state := by decide +kernel
  have hNone : ∀ part ∈ ["instances", "predicates", "functions"],
      let database := server.store.database problem.database
      database.get? (keyOf (problem.name database) part) = none := by decide +kernel
  have hWords : (Token.ofText "(and (not (p a)) (q ?x) (increase (f a) 2))").map Token.text =
      ["(", "and", "(", "not", "(", "p", "a", ")", ")", "(", "q", "?x", ")",
        "(", "increase", "(", "f", "a", ")", "2", ")", ")"] := by
    decide +kernel
  have hObject : ArgumentsOf ⟨[⟨"?x", "object"⟩]⟩ ["a"] [.object "a"] :=
    .cons (.object ⟨by decide, by decide⟩) .nil
  have hSlot : ArgumentsOf ⟨[⟨"?x", "object"⟩]⟩ ["?x"] [.slot 0] := .cons (.slot (by decide) (by decide)) .nil
  have hRemoved : Condition.Denotes ⟨[⟨"?x", "object"⟩]⟩ ["(", "p", "a", ")"]
      (some (.atom ⟨"p", [.object "a"]⟩)) :=
    .atom (by decide +kernel) ⟨by decide, by decide⟩ hObject
  have hNegation : Condition.Denotes _ ["(", "not", "(", "p", "a", ")", ")"] _ :=
    .negation (by decide +kernel) hRemoved
  have hAdded : Condition.Denotes ⟨[⟨"?x", "object"⟩]⟩ ["(", "q", "?x", ")"] (some (.atom ⟨"q", [.slot 0]⟩)) :=
    .atom (by decide +kernel) ⟨by decide, by decide⟩ hSlot
  have hTwo : DenotesExpression ⟨[⟨"?x", "object"⟩]⟩ ["2"] (.number 2) :=
    .number ⟨by decide, by decide⟩ (by decide +kernel)
  have hTarget : DenotesExpression ⟨[⟨"?x", "object"⟩]⟩ ["(", "f", "a", ")"]
      (.function ⟨"f", [.object "a"]⟩) :=
    .function ⟨by decide, by decide⟩ (by decide) hObject
  have hUpdate : Condition.Denotes _ ["(", "increase", "(", "f", "a", ")", "2", ")"] _ :=
    .update .increase (by decide +kernel) hTarget hTwo
  have hName : IsName "b" := ⟨by decide, by rw [← List.all_eq_true]; decide +kernel⟩
  have hEffect : effect.Compiled := by
    have hText : Condition.ofText "(and (not (p a)) (q ?x) (increase (f a) 2))" ⟨[⟨"?x", "object"⟩]⟩ =
        .ok (some condition) := by
      rw [Condition.ofText_eq_ok_iff, hWords]
      exact .conjunction (by decide +kernel) (.cons hNegation (.cons hAdded (.cons hUpdate .nil)))
    exact .ofText hText (List.forall_mem_singleton.mpr hName)
  have hFree : effect.QuantifierFree := by
    rw [Tree.QuantifierFree]
    decide
  have hSteps : ∀ step ∈ [(true, effect), (false, effect)], step.2.Compiled ∧ step.2.QuantifierFree :=
    List.forall_mem_cons.mpr ⟨⟨hEffect, hFree⟩, List.forall_mem_singleton.mpr ⟨hEffect, hFree⟩⟩
  have hLoad : server.change problem.database (problem.load state) = .ok loaded := by
    rw [Server.change, if_pos rfl]
  exact ⟨hState, hNone, hLoad, hSteps, replies_load hState hNone hLoad hSteps⟩

end Problem
end PlanLogic
