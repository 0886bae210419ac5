import PlanLogic.Problem.Server
import PlanLogic.Proofs.Evaluation.Coupling

/-!
# Invariants of evaluation against a snapshot

What the changes of a snapshot keep, evaluation keeps: every tree that names only what a vocabulary has leads
from a snapshot with the property to one with the property, whether it could be evaluated or not.
-/

namespace PlanLogic
namespace Snapshot

/-- A property of snapshots that is kept by the changes that a tree over a vocabulary can make. -/
structure Invariant (vocabulary : Vocabulary) (Holds : Snapshot → Prop) : Prop where
  closed : vocabulary.Closed
  add : ∀ {state : Snapshot} {fact : Fact}, vocabulary.fact fact → Holds state → Holds (state.add fact)
  remove : ∀ {state : Snapshot} {fact : Fact}, vocabulary.fact fact → Holds state → Holds (state.remove fact)
  write : ∀ {state : Snapshot} {assignment : Assignment}, vocabulary.head assignment.head → Holds state →
    Holds (state.write assignment)
  objects : ∀ {state : Snapshot}, vocabulary.quantifies → Holds state →
    ∀ name ∈ state.objects, vocabulary.object name

namespace Invariant

variable {vocabulary : Vocabulary} {Holds : Snapshot → Prop}

/-- The runs agree where the property holds, and keep it. -/
def coupling (hInvariant : Invariant vocabulary Holds) (commit : Bool) : Coupling commit Run Run where
  vocabulary := vocabulary
  closed := hInvariant.closed
  known _ := True
  Coupled post run other := ∀ observed, Holds observed.state →
    run observed = other observed ∧ post (run observed).1 ∧ Holds (run observed).2.state
  pure hPost observed hHolds := ⟨rfl, hPost, hHolds⟩
  bind hRun hNext observed hHolds := by
    obtain ⟨hSame, hMiddle, hAfter⟩ := hRun observed hHolds
    obtain ⟨hSameNext, hPost, hFinal⟩ := hNext _ hMiddle _ hAfter
    refine ⟨hSameNext.trans ?_, hPost, hFinal⟩
    rw [hSame]
    rfl
  weaken hRun hPost observed hHolds := by
    obtain ⟨hSame, hPre, hAfter⟩ := hRun observed hHolds
    exact ⟨hSame, hPost _ hPre, hAfter⟩
  holds _ _ hHolds := ⟨rfl, trivial, hHolds⟩
  add _ hFact _ hHolds := ⟨rfl, trivial, hInvariant.add hFact hHolds⟩
  remove _ hFact _ hHolds := ⟨rfl, trivial, hInvariant.remove hFact hHolds⟩
  value? _ _ hHolds := ⟨rfl, fun _ => trivial, hHolds⟩
  write _ hHead _ _ hHolds := ⟨rfl, trivial, hInvariant.write hHead hHolds⟩
  objects hQuantifies _ hHolds := ⟨rfl, hInvariant.objects hQuantifies hHolds, hHolds⟩
  report _ hHolds := ⟨rfl, trivial, hHolds⟩

/-- Evaluating a tree keeps an invariant. -/
theorem evaluated (hInvariant : Invariant vocabulary Holds) {state : Snapshot} (hHolds : Holds state)
    {tree : Tree} (hTree : vocabulary.Covers tree) (commit : Bool) :
    Holds (state.evaluated commit tree).2.state :=
  ((hInvariant.coupling commit).evaluate hTree 0 false (.start state) hHolds).2.2

end Invariant
end Snapshot
end PlanLogic
