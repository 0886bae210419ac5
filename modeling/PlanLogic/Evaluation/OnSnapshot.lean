import PlanLogic.Evaluation.Basic
import PlanLogic.Snapshot.Basic

/-!
# Evaluation against a snapshot

A snapshot answers every question, and refuses only to write a value that is not there.  Diagnostics are
collected in order.
-/

namespace PlanLogic

/-- A state together with the diagnostics of an evaluation so far. -/
structure Observed (σ : Type) where
  state : σ
  diagnostics : List Diagnostic

namespace Observed

/-- A state before an evaluation. -/
def start (state : σ) : Observed σ := ⟨state, []⟩

/-- The state with one more diagnostic. -/
def note (observed : Observed σ) (diagnostic : Diagnostic) : Observed σ :=
  { observed with diagnostics := observed.diagnostics ++ [diagnostic] }

/-- The lines of the diagnostics. -/
def reports (observed : Observed σ) : String :=
  String.join (observed.diagnostics.map Diagnostic.text)

end Observed

namespace Snapshot

/-- Evaluation steps against a snapshot. -/
abbrev Run := StateM (Observed Snapshot)

namespace Run

/-- Asks a question of the snapshot. -/
def ask (question : Snapshot → α) : Run α := fun observed =>
  (question observed.state, observed)

/-- Changes the snapshot. -/
def change (step : Snapshot → Snapshot) : Run Bool := fun observed =>
  (true, { observed with state := step observed.state })

/-- Writes a value if the snapshot has one for the head. -/
def write (assignment : Assignment) : Run Bool := fun observed =>
  (observed.state.assigns assignment.head,
   { observed with state := observed.state.write assignment })

end Run

instance : FactBase Run where
  holds fact := Run.ask (·.holds fact)
  add fact := Run.change (·.add fact)
  remove fact := Run.change (·.remove fact)
  value? key := Run.ask (·.value? key)
  write := Run.write
  objects := Run.ask Snapshot.objects
  report diagnostic := fun observed => ((), observed.note diagnostic)

/-- The outcome of evaluating a tree against a snapshot, and the snapshot afterwards. -/
def evaluated (snapshot : Snapshot) (commit : Bool) (tree : Tree) : Outcome × Observed Snapshot :=
  (evaluate commit tree 0 false : Run Outcome) (.start snapshot)

end Snapshot
end PlanLogic
