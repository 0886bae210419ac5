import PlanLogic.Problem.Server
import PlanLogic.Proofs.Evaluation.Locality

/-!
# Checking changes nothing

Evaluation changes a fact base only to make an effect true.  So checking leaves a snapshot as it is, with all facts
and numbers in their order, and leaves a server as it is, with everything in all of its databases.  Neither the
shape of the tree nor the answer plays a part: a tree may have cycles, evaluation may fail, and the server may be
out of reach.
-/

namespace PlanLogic

/-- A run keeps every snapshot as it is. -/
def Snapshot.Keeps (post : α → Prop) (run : Run α) : Prop :=
  ∀ observed : Observed Snapshot, post (run observed).1 ∧ (run observed).2.state = observed.state

/-- Checking a tree against a snapshot, with itself. -/
def Snapshot.keeping : Coupling false Run Run where
  vocabulary := .everything
  closed := Vocabulary.closed_everything
  known _ := True
  Coupled post run _ := Keeps post run
  pure hPost _ := ⟨hPost, rfl⟩
  bind hRun hNext observed := by
    obtain ⟨hMiddle, hHalfway⟩ := hRun observed
    obtain ⟨hPost, hFinal⟩ := hNext _ hMiddle _
    exact ⟨hPost, hFinal.trans hHalfway⟩
  weaken hRun hPost observed := ⟨hPost _ (hRun observed).1, (hRun observed).2⟩
  holds _ _ := ⟨trivial, rfl⟩
  -- Only an effect is added, removed or written.
  add hCommit := absurd hCommit Bool.false_ne_true
  remove hCommit := absurd hCommit Bool.false_ne_true
  write hCommit := absurd hCommit Bool.false_ne_true
  value? _ _ := ⟨fun _ => trivial, rfl⟩
  objects _ _ := ⟨fun _ _ => trivial, rfl⟩
  report _ := ⟨trivial, rfl⟩

namespace Problem

/-- A run ends with an answer, or because the server cannot be reached.  Either way the server has a property. -/
inductive Ends (holds : Server → Prop) (post : α → Prop) : EStateM.Result Unreachable (Observed Server) α → Prop
  | ok {answer : α} {after : Observed Server} (hPost : post answer) (hState : holds after.state) :
      Ends holds post (.ok answer after)
  | error {cause : Unreachable} {after : Observed Server} (hState : holds after.state) :
      Ends holds post (.error cause after)

/-- A run keeps a property of servers. -/
def Keeps (problem : Problem) (holds : Server → Prop) (post : α → Prop) (run : Run α) : Prop :=
  ∀ observed, holds observed.state → Ends holds post (run problem observed)

/-- Adding a fact stores it if the problem admits it, and changes nothing otherwise. -/
theorem Run.add_apply (fact : Fact) (problem : Problem) (observed : Observed Server) :
    Run.add fact problem observed =
      match observed.state.change problem.database (problem.insert fact) with
      | .error cause => .error cause observed
      | .ok next =>
        if problem.admits (observed.state.store.database problem.database) fact then
          .ok true { observed with state := next }
        else
          .ok false observed := by
  show EStateM.bind (Run.ask (fun problem database => problem.admits database fact) problem) _ observed = _
  rw [EStateM.bind, Run.ask, Server.ask, Server.change]
  by_cases hReachable : observed.state.reachable = true
  · rw [if_pos hReachable, if_pos hReachable]
    dsimp only
    split
    · show EStateM.bind (Run.change (fun problem => problem.insert fact) problem) _ observed = _
      rw [EStateM.bind, Run.change, Server.change, if_pos hReachable]
      rfl
    · rfl
  · rw [if_neg hReachable, if_neg hReachable]

namespace Keeps

variable {problem : Problem} {holds : Server → Prop}

theorem pure {post : α → Prop} {answer : α} (hPost : post answer) : problem.Keeps holds post (Pure.pure answer) :=
  fun _ hState => .ok hPost hState

theorem bind {middle : α → Prop} {post : β → Prop} {run : Run α} {next : α → Run β}
    (hRun : problem.Keeps holds middle run)
    (hNext : ∀ answer, middle answer → problem.Keeps holds post (next answer)) :
    problem.Keeps holds post (run >>= next) := by
  intro observed hState
  show Ends holds post (EStateM.bind (run problem) _ observed)
  have hEnds := hRun observed hState
  rw [EStateM.bind]
  generalize run problem observed = result at hEnds ⊢
  cases hEnds with
  | @ok answer after hMiddle hHalfway => exact hNext answer hMiddle after hHalfway
  | error hFinal => exact .error hFinal

theorem weaken {pre post : α → Prop} {run : Run α} (hRun : problem.Keeps holds pre run)
    (hPost : ∀ answer, pre answer → post answer) : problem.Keeps holds post run := by
  intro observed hState
  have hEnds := hRun observed hState
  generalize run problem observed = result at hEnds ⊢
  cases hEnds with
  | ok hPre hFinal => exact .ok (hPost _ hPre) hFinal
  | error hFinal => exact .error hFinal

/-- A question keeps every property; its answer may rely on the property. -/
theorem ask {question : Problem → Database → α} {post : α → Prop}
    (hPost : ∀ server, holds server → post (question problem (server.store.database problem.database))) :
    problem.Keeps holds post (Run.ask question) := by
  intro observed hState
  rw [Run.ask, Server.ask]
  by_cases hReachable : observed.state.reachable
  · rw [if_pos hReachable]
    exact .ok (hPost _ hState) hState
  · rw [if_neg hReachable]
    exact .error hState

theorem change {step : Problem → Database → Database}
    (hStep : ∀ {server next}, holds server → server.change problem.database (step problem) = .ok next → holds next) :
    problem.Keeps holds (fun _ => True) (Run.change step) := by
  intro observed hState
  rw [Run.change]
  split
  · next hChange => exact .ok trivial (hStep hState hChange)
  · exact .error hState

/-- A fact is stored only if the problem admits it. -/
theorem add {fact : Fact}
    (hInsert : ∀ {server next}, holds server → problem.admits (server.store.database problem.database) fact = true →
      server.change problem.database (problem.insert fact) = .ok next → holds next) :
    problem.Keeps holds (fun _ => True) (Run.add fact) := by
  intro observed hState
  rw [Run.add_apply]
  split
  · exact .error hState
  · next hChange =>
      split
      · next hAdmits => exact .ok trivial (hInsert hState hAdmits hChange)
      · exact .ok trivial hState

/-- What evaluation keeps holds of the server afterwards, however it ends. -/
theorem seen {commit negated : Bool} {tree : Tree} {reference : Int} {post : Outcome → Prop} {server : Server}
    (hKeeps : problem.Keeps holds post (evaluate commit tree reference negated)) (hServer : holds server) :
    holds (problem.seen server commit tree reference negated).2.1 := by
  have hEnds := hKeeps (.start server) hServer
  rw [Problem.seen]
  generalize (evaluate commit tree reference negated : Run Outcome) problem (.start server) = result at hEnds ⊢
  cases hEnds with
  | ok _ hState => exact hState
  | error hState => exact hState

end Keeps

/-- The server after evaluating a whole tree. -/
theorem evaluated_state (problem : Problem) (server : Server) (commit : Bool) (tree : Tree) :
    (problem.evaluated server commit tree).2.state = (problem.seen server commit tree 0 false).2.1 := by
  rw [Problem.evaluated, Problem.seen]
  cases (evaluate commit tree 0 false : Run Outcome) problem (.start server) with
  | ok _ _ => rfl
  | error _ _ => rfl

/-- Checking a tree against a problem, with itself. -/
def keeping (problem : Problem) (server : Server) : Coupling false Run Run where
  vocabulary := .everything
  closed := Vocabulary.closed_everything
  known _ := True
  Coupled post run _ := problem.Keeps (· = server) post run
  pure := .pure
  bind := .bind
  weaken := .weaken
  holds _ := .ask fun _ _ => trivial
  add hCommit := absurd hCommit Bool.false_ne_true
  remove hCommit := absurd hCommit Bool.false_ne_true
  write hCommit := absurd hCommit Bool.false_ne_true
  value? _ := .ask fun _ _ _ => trivial
  objects _ := .ask fun _ _ _ _ => trivial
  report _ hState := .ok trivial hState

end Problem

theorem Vocabulary.covers_everything (tree : Tree) : everything.Covers tree :=
  fun node _ => coversNode_everything node

/-- Checking any part of any tree, under a negation or not, leaves a snapshot and a server as they are.  So it does
if it fails, also because the server cannot be reached. -/
theorem seen_check_state (tree : Tree) (reference : Int) (negated : Bool) :
    (∀ state : Snapshot, (state.seen false tree reference negated).2.1 = state) ∧
      ∀ (problem : Problem) (server : Server),
        (problem.seen server false tree reference negated).2.1 = server := by
  have hTree := Vocabulary.covers_everything tree
  refine ⟨fun state => ?_, fun problem server => ?_⟩
  · exact (Snapshot.keeping.evaluate hTree reference negated (.start state)).2
  · have hEnds := (problem.keeping server).evaluate hTree reference negated (.start server) rfl
    rw [Problem.seen]
    generalize (evaluate false tree reference negated : Problem.Run Outcome) problem (.start server) = result
      at hEnds ⊢
    cases hEnds with
    | ok _ hState => exact hState
    | error hState => exact hState

end PlanLogic
