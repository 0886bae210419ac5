import PlanLogic.Evaluation.OnSnapshot
import PlanLogic.Problem.Basic
import PlanLogic.Store.Server

/-!
# Evaluation against a problem

Evaluation against a problem goes through the server of its store, and the diagnostics before a failure are kept.
-/

namespace PlanLogic

namespace Problem

/-- Evaluation steps against a problem on a server. -/
abbrev Run := ReaderT Problem (EStateM Unreachable (Observed Server))

namespace Run

/-- Asks a question of the problem. -/
def ask (question : Problem → Database → α) : Run α := fun problem observed =>
  match observed.state.ask problem.database (question problem) with
  | .ok answer => .ok answer observed
  | .error e => .error e observed

/-- Changes the problem. -/
def change (step : Problem → Database → Database) : Run Unit := fun problem observed =>
  match observed.state.change problem.database (step problem) with
  | .ok server => .ok () { observed with state := server }
  | .error e => .error e observed

/-- Adds a fact if it may be added. -/
def add (fact : Fact) : Run Bool := do
  if ← ask fun problem database => problem.admits database fact then
    change fun problem => problem.insert fact
    return true
  else
    return false

end Run

instance : FactBase Run where
  holds fact := Run.ask fun problem database => problem.holds database fact
  add := Run.add
  remove fact := do
    Run.change fun problem => problem.remove fact
    return true
  value? key := Run.ask fun problem database => problem.value? database key
  write assignment := do
    Run.change fun problem => problem.write assignment
    return true
  objects := Run.ask Problem.objects
  report diagnostic := fun _ observed => .ok () (observed.note diagnostic)

/-- The outcome of evaluating a tree against a problem, if the server can be reached, and the server
afterwards. -/
def evaluated (problem : Problem) (server : Server) (commit : Bool) (tree : Tree) :
    Except Unreachable Outcome × Observed Server :=
  match (evaluate commit tree 0 false : Run Outcome) problem (.start server) with
  | .ok outcome after => (.ok outcome, after)
  | .error error after => (.error error, after)

end Problem
end PlanLogic
