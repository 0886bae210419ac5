import PlanLogic.Proofs.Documents.RoundTrip
import PlanLogic.Proofs.Evaluation.Footprint
import PlanLogic.Proofs.Evaluation.Locality

/-!
# What evaluation leaves alone

Making a part of a tree true changes a snapshot only where the part says so, whether all of it can be done or not.
Heads are never added, dropped or moved, and a head keeps its number unless an update that is reached is about a
function of its name.  Facts whose name no predicate has that is reached keep their places among each other, and
facts are never repeated.
-/

namespace PlanLogic
namespace Snapshot

/-- One snapshot comes from another one by changes to facts and heads with certain names. -/
structure Frame (facts heads : String → Prop) (before after : Snapshot) : Prop where
  heads_eq : after.heads = before.heads
  assignment : ∀ {index : Nat} {assignment : Assignment}, before.assignments[index]? = some assignment →
    ¬ heads assignment.head.name → after.assignments[index]? = some assignment
  filter_eq : ∀ {kept : Fact → Bool}, (∀ fact, facts fact.name → kept fact = false) →
    after.facts.filter kept = before.facts.filter kept
  nodup : before.facts.Nodup → after.facts.Nodup

/-- Writing a number leaves the assignments to other heads in their places. -/
theorem getElem?_replaceFirst {old new : Assignment} (hHead : old.head ≠ new.head) {assignments : List Assignment}
    {index : Nat} (hOld : assignments[index]? = some old) : (replaceFirst new assignments)[index]? = some old := by
  induction assignments generalizing index with
  | nil => exact hOld
  | cons first rest ih =>
      rw [replaceFirst]
      cases index with
      | zero =>
          obtain rfl := Option.some.inj hOld
          rw [if_neg hHead]
          rfl
      | succ index =>
          split
          · exact hOld
          · exact ih hOld

namespace Frame

variable {facts heads : String → Prop} {before middle after : Snapshot}

theorem refl (state : Snapshot) : Frame facts heads state state :=
  ⟨rfl, fun hIndex _ => hIndex, fun _ => rfl, id⟩

theorem trans (hFirst : Frame facts heads before middle) (hSecond : Frame facts heads middle after) :
    Frame facts heads before after where
  heads_eq := hSecond.heads_eq.trans hFirst.heads_eq
  assignment hIndex hName := hSecond.assignment (hFirst.assignment hIndex hName) hName
  filter_eq hKept := (hSecond.filter_eq hKept).trans (hFirst.filter_eq hKept)
  nodup hNodup := hSecond.nodup (hFirst.nodup hNodup)

theorem add {fact : Fact} (hFact : facts fact.name) (state : Snapshot) : Frame facts heads state (state.add fact) where
  heads_eq := heads_add state fact
  assignment hIndex _ := by
    rw [assignments_add]
    exact hIndex
  filter_eq hKept := by
    rw [Snapshot.add]
    split
    · rfl
    · rw [List.filter_append, List.filter_singleton, hKept fact hFact]
      exact List.append_nil _
  nodup hNodup := nodup_add hNodup fact

theorem remove {fact : Fact} (hFact : facts fact.name) (state : Snapshot) :
    Frame facts heads state (state.remove fact) where
  heads_eq := heads_remove state fact
  assignment hIndex _ := hIndex
  filter_eq {kept} hKept := by
    have hOther : fact ∉ state.facts.filter kept := fun hMem => by
      rw [List.mem_filter, hKept fact hFact] at hMem
      exact absurd hMem.2 Bool.false_ne_true
    rw [Snapshot.remove, ← List.erase_filter, List.erase_of_not_mem hOther]
  nodup hNodup := hNodup.erase fact

theorem write {assignment : Assignment} (hHead : heads assignment.head.name) (state : Snapshot) :
    Frame facts heads state (state.write assignment) where
  heads_eq := heads_write state assignment
  assignment {index old} hIndex hName := by
    have hOther : old.head ≠ assignment.head := fun hSame => hName (hSame ▸ hHead)
    exact getElem?_replaceFirst hOther hIndex
  filter_eq _ := rfl
  nodup hNodup := hNodup

end Frame

/-- A run changes a snapshot at facts and heads with certain names only. -/
def Framed (facts heads : String → Prop) (run : Run α) : Prop :=
  ∀ observed, Frame facts heads observed.state (run observed).2.state

/-- Runs that change only what a part of a tree names. -/
def framing (tree : Tree) (root : Int) : Footprint Run tree root where
  Admits := Framed (tree.NamesFact root) (tree.NamesTarget root)
  pure _ _ := .refl _
  bind {_ _ run _} hRun hNext observed := (hRun observed).trans (hNext (run observed).1 (run observed).2)
  holds _ _ := .refl _
  value? _ _ := .refl _
  objects _ := .refl _
  add hFact observed := .add hFact observed.state
  remove hFact observed := .remove hFact observed.state
  write hHead observed := .write hHead observed.state
  report _ _ _ _ := .refl _

open Classical in
/-- Whether a part of a tree could be made true or not: the heads that have a number are the same in the same order, a
head keeps its number if no function of its name is changed by an update that is reached, the facts whose name no
predicate has that is reached are the same in the same order, and no fact is repeated that was not. -/
theorem seen_frame (state : Snapshot) (commit : Bool) (tree : Tree) (reference : Int) (negated : Bool) :
    let after := (state.seen commit tree reference negated).2.1
    after.heads = state.heads ∧
      (∀ (index : Nat) (assignment : Assignment), state.assignments[index]? = some assignment →
        ¬ tree.NamesTarget reference assignment.head.name → after.assignments[index]? = some assignment) ∧
      (after.facts.filter fun fact => ¬ tree.NamesFact reference fact.name) =
        (state.facts.filter fun fact => ¬ tree.NamesFact reference fact.name) ∧
      (state.facts.Nodup → after.facts.Nodup) := by
  intro after
  have hFrame : Frame (tree.NamesFact reference) (tree.NamesTarget reference) state after :=
    (framing tree reference).evaluate negated (.start state)
  refine ⟨hFrame.heads_eq, fun _ _ hIndex hName => hFrame.assignment hIndex hName, ?_, hFrame.nodup⟩
  exact hFrame.filter_eq fun fact hNamed => by simp [hNamed]

/-- The second update has no number to increase, so the effect fails, but after the first one.  What it does not name is
as it was. -/
example :
    let state : Snapshot := ⟨[⟨"q", []⟩, ⟨"p", []⟩, ⟨"q", ["a"]⟩], [⟨⟨"h", []⟩, 5⟩, ⟨⟨"f", []⟩, 1⟩]⟩
    let effect := Tree.ofCondition (some (.conjunction [.negation (.atom ⟨"p", []⟩),
      .update .increase ⟨"f", []⟩ (.number 1), .update .increase ⟨"g", []⟩ (.number 1)])) []
    let (outcome, after, _) := state.seen true effect 0 false
    outcome.success = false ∧ after = ⟨[⟨"q", []⟩, ⟨"q", ["a"]⟩], [⟨⟨"h", []⟩, 5⟩, ⟨⟨"f", []⟩, 2⟩]⟩ := by
  decide +kernel

end Snapshot
end PlanLogic
