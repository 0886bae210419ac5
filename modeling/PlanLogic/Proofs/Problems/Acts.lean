import PlanLogic.Proofs.Problems.ReadingBack

/-!
# What acts on a problem keep

An act on a problem is an operation, or the evaluation of any part of a tree.  It changes one database only, and
apart from loading and clearing it does so by four kinds of steps: an object is declared, a fact that the problem
admits is stored, a fact is removed, or a number is stored.  So a property of databases that these steps keep is
kept by every act, whatever tree is evaluated and however the evaluation ends.
-/

namespace PlanLogic

/-- A server that differs from another one in no database but one, which has a property. -/
structure Server.ChangedAt (start : Server) (number : Int) (holds : Database → Prop) (server : Server) : Prop where
  here : holds (server.store.database number)
  elsewhere : ∀ other, other ≠ number → server.store.database other = start.store.database other

namespace Problem

/-- What can be done with a problem. -/
inductive Act where
  | perform (operation : Operation)
  | evaluate (commit : Bool) (tree : Tree) (reference : Int) (negated : Bool)

/-- The server after an act. -/
def act (problem : Problem) (server : Server) : Act → Server
  | .perform operation => problem.perform server operation
  | .evaluate commit tree reference negated => (problem.seen server commit tree reference negated).2.1

/-- The server after acts in order. -/
def actAll (problem : Problem) (server : Server) (acts : List Act) : Server :=
  acts.foldl problem.act server

/-- A property of databases that every step keeps. -/
structure Stable (problem : Problem) (holds : Database → Prop) : Prop where
  declare : ∀ {database : Database} (object : Instance), holds database → holds (problem.declare object database)
  insert : ∀ {database : Database} {fact : Fact}, holds database → problem.admits database fact = true →
    holds (problem.insert fact database)
  remove : ∀ {database : Database} (fact : Fact), holds database → holds (problem.remove fact database)
  write : ∀ {database : Database} (assignment : Assignment), holds database →
    holds (problem.write assignment database)

end Problem

/-! ## Changes -/

namespace Server.ChangedAt

theorem refl {server : Server} {number : Int} {holds : Database → Prop}
    (hHolds : holds (server.store.database number)) : server.ChangedAt number holds server :=
  ⟨hHolds, fun _ _ => rfl⟩

variable {problem : Problem} {start server next : Server} {holds : Database → Prop} {step : Database → Database}
  (hServer : start.ChangedAt problem.database holds server)
  (hStep : holds (server.store.database problem.database) → holds (step (server.store.database problem.database)))

include hServer hStep

theorem change (hChange : server.change problem.database step = .ok next) :
    start.ChangedAt problem.database holds next := by
  rw [Server.change] at hChange
  split at hChange
  · obtain rfl := Except.ok.inj hChange
    refine ⟨?_, fun other hOther => ?_⟩
    · rw [Store.database_onDatabase_self]
      exact hStep hServer.here
    · rw [Store.database_onDatabase_ne hOther]
      exact hServer.elsewhere other hOther
  · exact absurd hChange (by simp)

theorem changed : start.ChangedAt problem.database holds (problem.changed server step) := by
  rw [Problem.changed]
  split
  · next hChange => exact hServer.change hStep hChange
  · exact hServer

end Server.ChangedAt

namespace Problem

variable {problem : Problem} {start server : Server} {holds : Database → Prop}

/-! ## Evaluations -/

namespace Stable

variable (hStable : problem.Stable holds)

include hStable

/-- Evaluating any tree keeps what its steps keep. -/
def evaluating (start : Server) (commit : Bool) : Coupling commit Run Run where
  vocabulary := .everything
  closed := Vocabulary.closed_everything
  known _ := True
  Coupled post run _ := problem.Keeps (start.ChangedAt problem.database holds) post run
  pure := .pure
  bind := .bind
  weaken := .weaken
  holds _ := .ask fun _ _ => trivial
  add _ _ := .add fun hServer hAdmits hChange => hServer.change (fun hHere => hStable.insert hHere hAdmits) hChange
  remove _ _ := (Keeps.change fun hServer => hServer.change (hStable.remove _)).bind fun _ _ => .pure trivial
  value? _ := .ask fun _ _ _ => trivial
  write _ _ _ := (Keeps.change fun hServer => hServer.change (hStable.write _)).bind fun _ _ => .pure trivial
  objects _ := .ask fun _ _ _ _ => trivial
  report _ hState := .ok trivial hState

theorem changedAt_seen (hServer : start.ChangedAt problem.database holds server) (commit : Bool) (tree : Tree)
    (reference : Int) (negated : Bool) :
    start.ChangedAt problem.database holds (problem.seen server commit tree reference negated).2.1 := by
  have hKeeps : problem.Keeps (start.ChangedAt problem.database holds) (fun _ => True)
      (PlanLogic.evaluate commit tree reference negated) :=
    (hStable.evaluating start commit).evaluate (Vocabulary.covers_everything tree) reference negated
  exact hKeeps.seen hServer

/-! ## Acts -/

theorem add {database : Database} (fact : Fact) (hHolds : holds database) : holds (problem.add fact database).2 := by
  rw [Problem.add]
  split
  · next hAdmits => exact hStable.insert hHolds hAdmits
  · exact hHolds

/-- An act other than clearing; loading stores facts without asking whether they are admitted. -/
theorem changedAt_act (hServer : start.ChangedAt problem.database holds server) {act : Act}
    (hLoad : ∀ {database : Database} {state : Snapshot}, act = .perform (.load state) → holds database →
      holds (problem.load state database))
    (hClear : act ≠ .perform .clear) : start.ChangedAt problem.database holds (problem.act server act) := by
  cases act with
  | evaluate commit tree reference negated => exact hStable.changedAt_seen hServer commit tree reference negated
  | perform operation =>
      cases operation with
      | declare object => exact hServer.changed (hStable.declare object)
      | add fact => exact hServer.changed (hStable.add fact)
      | remove fact => exact hServer.changed (hStable.remove fact)
      | write assignment => exact hServer.changed (hStable.write assignment)
      | load state => exact hServer.changed (hLoad rfl)
      | evaluate commit tree =>
          show start.ChangedAt problem.database holds (problem.evaluated server commit tree).2.state
          rw [evaluated_state]
          exact hStable.changedAt_seen hServer commit tree 0 false
      | clear => exact absurd rfl hClear

end Stable
end Problem
end PlanLogic
