import PlanLogic.Problem.Server
import PlanLogic.Proofs.Documents.RoundTrip
import PlanLogic.Proofs.Evaluation.Coupling

/-!
# What evaluation asks for and changes

A fact base can be watched: every question about a fact or a number, and every change, is listed when it is
made.  Watching changes nothing else.  So what can be said about a tree that is evaluated against a watched
snapshot can be said about every access that evaluating it makes.
-/

namespace PlanLogic

/-- A name that stands for an object: no variable and no placeholder, but a word or one of the names that were
given.  A given name may have blanks in it, and no other name does, so the text of a head tells its arguments apart
as far as the given names allow. -/
structure IsObject (given : List String) (name : String) : Prop where
  ground : isGround name = true
  known : IsName name ∨ name ∈ given

/-- Every argument of a fact stands for an object. -/
def Fact.IsGround (given : List String) (fact : Fact) : Prop :=
  ∀ arg ∈ fact.args, IsObject given arg

/-- A question about a fact or a number, or a change. -/
inductive Access where
  | asked (fact : Fact)
  | added (fact : Fact)
  | removed (fact : Fact)
  | read (key : String)
  | written (assignment : Assignment)
deriving Repr

/-- All arguments of what is asked for or changed stand for objects.  A number is asked for by the text of a head,
which has to be the text of such a head. -/
inductive Access.IsGround (given : List String) : Access → Prop
  | asked {fact : Fact} (hFact : fact.IsGround given) : IsGround given (.asked fact)
  | added {fact : Fact} (hFact : fact.IsGround given) : IsGround given (.added fact)
  | removed {fact : Fact} (hFact : fact.IsGround given) : IsGround given (.removed fact)
  | read {head : Fact} (hName : IsName head.name) (hHead : head.IsGround given) : IsGround given (.read head.key)
  | written {assignment : Assignment} (hHead : assignment.head.IsGround given) : IsGround given (.written assignment)

/-- Runs that list their accesses. -/
abbrev Watched (m : Type → Type) := StateT (List Access) m

namespace Watched

variable {m : Type → Type} [Monad m] [FactBase m]

/-- A run that is listed as an access. -/
def listing (access : Access) (run : m α) : Watched m α := fun accesses => do
  return (← run, accesses ++ [access])

/-- A run that is not listed. -/
def silently (run : m α) : Watched m α := fun accesses => do
  return (← run, accesses)

instance : FactBase (Watched m) where
  holds fact := listing (.asked fact) (FactBase.holds fact)
  add fact := listing (.added fact) (FactBase.add fact)
  remove fact := listing (.removed fact) (FactBase.remove fact)
  value? key := listing (.read key) (FactBase.value? key)
  write assignment := listing (.written assignment) (FactBase.write assignment)
  objects := silently FactBase.objects
  report diagnostic := silently (FactBase.report diagnostic)

end Watched

namespace Snapshot

/-- The outcome of evaluating a tree against a snapshot and the snapshot afterwards, and the accesses that were
made. -/
def watched (state : Snapshot) (commit : Bool) (tree : Tree) : (Outcome × Observed Snapshot) × List Access :=
  let ((outcome, accesses), after) := (evaluate commit tree 0 false : Watched Run Outcome) [] (.start state)
  ((outcome, after), accesses)

/-- Every fact is about objects, and `heads` are the heads that have a number. -/
structure IsGround (given : List String) (heads : List Fact) (state : Snapshot) : Prop where
  facts : ∀ fact ∈ state.facts, fact.IsGround given
  heads : state.heads = heads

namespace IsGround

variable {given : List String} {heads : List Fact} {state : Snapshot} (hState : state.IsGround given heads)

include hState

theorem add {fact : Fact} (hFact : fact.IsGround given) : (state.add fact).IsGround given heads := by
  refine ⟨fun other hOther => ?_, (heads_add state fact).trans hState.heads⟩
  rcases mem_add_iff.mp hOther with rfl | hOld
  · exact hFact
  · exact hState.facts other hOld

theorem remove (fact : Fact) : (state.remove fact).IsGround given heads :=
  ⟨fun other hOther => hState.facts other (List.mem_of_mem_erase hOther), hState.heads⟩

theorem write (assignment : Assignment) : (state.write assignment).IsGround given heads :=
  ⟨hState.facts, (heads_write state assignment).trans hState.heads⟩

theorem of_mem_objects {name : String} (hName : name ∈ state.objects) : IsObject given name := by
  obtain ⟨fact, hFact, hArg⟩ := mem_objects.mp hName
  exact hState.facts fact hFact name hArg

end IsGround
end Snapshot

/-! ## Watched runs -/

namespace Vocabulary

variable {given : List String}

/-- Facts and heads about objects. -/
def ground (given : List String) : Vocabulary :=
  ⟨Fact.IsGround given, fun head => IsName head.name ∧ head.IsGround given, IsObject given, True⟩

theorem closed_ground : (ground given).Closed where
  fact hNames hFact := Fact.forall_args_rename hNames hFact
  head hNames hHead := ⟨hHead.1, Fact.forall_args_rename hNames hHead.2⟩

end Vocabulary

namespace Watched

open Snapshot

/-- A watched run does what the run does, and all that it lists is ground. -/
def Shadows (given : List String) (heads : List Fact) (post : α → Prop) (run : Run α) (other : Watched Run α) : Prop :=
  ∀ observed accesses, observed.state.IsGround given heads →
    ∃ more, other accesses observed = (((run observed).1, accesses ++ more), (run observed).2) ∧
      (∀ access ∈ more, access.IsGround given) ∧ post (run observed).1 ∧ (run observed).2.state.IsGround given heads

variable {given : List String} {heads : List Fact}

theorem shadows_listing {access : Access} (hAccess : access.IsGround given) {post : α → Prop} {run : Run α}
    (hPost : ∀ observed : Observed Snapshot, observed.state.IsGround given heads →
      post (run observed).1 ∧ (run observed).2.state.IsGround given heads) :
    Shadows given heads post run (listing access run) := fun observed _ hGround =>
  ⟨[access], rfl, List.forall_mem_singleton.mpr hAccess, hPost observed hGround⟩

theorem shadows_silently {post : α → Prop} {run : Run α}
    (hPost : ∀ observed : Observed Snapshot, observed.state.IsGround given heads →
      post (run observed).1 ∧ (run observed).2.state.IsGround given heads) :
    Shadows given heads post run (silently run) := fun observed _ hGround =>
  ⟨[], by rw [List.append_nil]; rfl, fun _ hMem => absurd hMem List.not_mem_nil, hPost observed hGround⟩

/-- The runs against a snapshot and against a watched snapshot. -/
def shadowing (given : List String) (heads : List Fact) (commit : Bool) : Coupling commit Run (Watched Run) where
  vocabulary := .ground given
  closed := Vocabulary.closed_ground
  known _ := True
  Coupled := Shadows given heads
  pure hPost observed accesses hGround :=
    ⟨[], by rw [List.append_nil]; rfl, fun _ hMem => absurd hMem List.not_mem_nil, hPost, hGround⟩
  bind hRun hNext observed accesses hGround := by
    obtain ⟨first, hOther, hFirst, hMiddle, hHalfway⟩ := hRun observed accesses hGround
    obtain ⟨second, hOtherNext, hSecond, hPost, hFinal⟩ := hNext _ hMiddle _ (accesses ++ first) hHalfway
    refine ⟨first ++ second, ?_, List.forall_mem_append.mpr ⟨hFirst, hSecond⟩, hPost, hFinal⟩
    rw [← List.append_assoc]
    refine Eq.trans ?_ hOtherNext
    simp only [bind, StateT.bind, hOther]
  weaken hRun hPost observed accesses hGround := by
    obtain ⟨more, hOther, hMore, hPre, hFinal⟩ := hRun observed accesses hGround
    exact ⟨more, hOther, hMore, hPost _ hPre, hFinal⟩
  holds hFact := shadows_listing (.asked hFact) fun _ hGround => ⟨trivial, hGround⟩
  add _ hFact := shadows_listing (.added hFact) fun _ hGround => ⟨trivial, hGround.add hFact⟩
  remove _ hFact := shadows_listing (.removed hFact) fun _ hGround => ⟨trivial, hGround.remove _⟩
  value? hHead := shadows_listing (.read hHead.1 hHead.2) fun _ hGround => ⟨fun _ => trivial, hGround⟩
  write _ hHead _ := shadows_listing (.written hHead.2) fun _ hGround => ⟨trivial, hGround.write _⟩
  objects _ := shadows_silently fun _ hGround => ⟨fun _ hName => hGround.of_mem_objects hName, hGround⟩
  report := shadows_silently fun _ hGround => ⟨trivial, hGround⟩

end Watched
end PlanLogic
