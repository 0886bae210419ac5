import PlanLogic.Command.Run
import PlanLogic.Proofs.Evaluation.Checking
import PlanLogic.Proofs.Evaluation.Locality

/-!
# Steps of a run

What a step keeps of the world, and what becomes of the steps after it: they go on from where it ends with an answer,
and are left out where it ends the run.  A step with a problem changes no file; and if it only asks questions, as
checking a tree does, it leaves the store as it is too.
-/

namespace PlanLogic

variable {σ : Type}

/-! ## Sessions that only ask questions -/

namespace Problem.Session

/-- A session ends with an answer or in trouble.  Either way the store is as it was. -/
inductive Unchanged (store : σ) (post : α → Prop) : EStateM.Result Trouble (Observed σ) α → Prop
  | ok {answer : α} {after : Observed σ} (hPost : post answer) (hStore : after.state = store) :
      Unchanged store post (.ok answer after)
  | error {trouble : Trouble} {after : Observed σ} (hStore : after.state = store) :
      Unchanged store post (.error trouble after)

/-- A session leaves the store as it is, and its answer has a property. -/
def Asks (post : α → Prop) (session : Session σ α) : Prop :=
  ∀ problem observed, Unchanged observed.state post (session problem observed)

namespace Asks

theorem pure {post : α → Prop} {answer : α} (hPost : post answer) : Asks post (Pure.pure answer : Session σ α) :=
  fun _ _ => .ok hPost rfl

theorem bind {middle : α → Prop} {post : β → Prop} {session : Session σ α} {next : α → Session σ β}
    (hSession : Asks middle session) (hNext : ∀ answer, middle answer → Asks post (next answer)) :
    Asks post (session >>= next) := by
  intro problem observed
  show Unchanged observed.state post (EStateM.bind (session problem) _ observed)
  have hUnchanged := hSession problem observed
  rw [EStateM.bind]
  generalize session problem observed = result at hUnchanged ⊢
  cases hUnchanged with
  | @ok answer after hMiddle hHalfway => exact hHalfway ▸ hNext answer hMiddle problem after
  | error hFinal => exact .error hFinal

theorem weaken {pre post : α → Prop} {session : Session σ α} (hSession : Asks pre session)
    (hPost : ∀ answer, pre answer → post answer) : Asks post session := by
  intro problem observed
  have hUnchanged := hSession problem observed
  generalize session problem observed = result at hUnchanged ⊢
  cases hUnchanged with
  | ok hPre hStore => exact .ok (hPost _ hPre) hStore
  | error hStore => exact .error hStore

variable [StoreService σ]

theorem ask (query : Query α) : Asks (fun _ => True) (Session.ask query : Session σ α) := by
  intro problem observed
  rw [Session.ask]
  cases StoreService.ask observed.state problem.database query with
  | ok answer => exact .ok trivial rfl
  | error error => exact .error rfl

theorem activeName : Asks (fun _ => True) (Session.activeName : Session σ String) :=
  (ask _).bind fun _ _ => .pure trivial

theorem name : Asks (fun _ => True) (Session.name : Session σ String) := by
  intro problem observed
  rw [Session.name]
  cases problem.fixed with
  | some name => exact .ok trivial rfl
  | none => exact activeName problem observed

theorem key (part : String) : Asks (fun _ => True) (Session.key part : Session σ String) :=
  name.bind fun _ _ => .pure trivial

theorem holds (fact : Fact) : Asks (fun _ => True) (Session.holds fact : Session σ Bool) :=
  (key _).bind fun _ _ => ask _

theorem value? (text : String) : Asks (fun _ => True) (Session.value? text : Session σ (Option Float)) := by
  refine (key _).bind fun _ _ => (ask _).bind fun found _ => ?_
  cases found with
  | none => exact .pure trivial
  | some stored =>
      dsimp only
      cases storedNumber? stored with
      | none => exact fun _ _ => .error rfl
      | some value => exact .pure trivial

theorem instances : Asks (fun _ => True) (Session.instances : Session σ (List Instance)) :=
  (key _).bind fun _ _ => (ask _).bind fun _ _ => .pure trivial

theorem objects : Asks (fun _ => True) (Session.objects : Session σ (List String)) :=
  instances.bind fun _ _ => .pure trivial

end Asks

/-- Checking a tree against a problem, with itself. -/
def asking [StoreService σ] : Coupling false (Session σ) (Session σ) where
  vocabulary := .everything
  closed := Vocabulary.closed_everything
  known _ := True
  Coupled post session _ := Asks post session
  pure := .pure
  bind := .bind
  weaken := .weaken
  holds _ := .holds _
  -- Only an effect is added, removed or written.
  add hCommit := absurd hCommit Bool.false_ne_true
  remove hCommit := absurd hCommit Bool.false_ne_true
  write hCommit := absurd hCommit Bool.false_ne_true
  value? _ := (Asks.value? _).weaken fun _ _ _ => trivial
  objects _ := Asks.objects.weaken fun _ _ _ _ => trivial
  report _ _ := .ok trivial rfl

end Problem.Session

/-! ## Steps one after the other -/

namespace Command

variable {console : Console} {progress middle : Progress σ}

theorem bind_ok {command : Command σ α} {next : α → Command σ β} {answer : α}
    (hFirst : command console progress = .ok answer middle) :
    (command >>= next) console progress = next answer console middle := by
  show EStateM.bind (command console) _ progress = _
  rw [EStateM.bind, hFirst]

theorem bind_error {command : Command σ α} {next : α → Command σ β} {ending : Ending}
    (hFirst : command console progress = .error ending middle) :
    (command >>= next) console progress = .error ending middle := by
  show EStateM.bind (command console) _ progress = _
  rw [EStateM.bind, hFirst]

/-! ## What steps keep -/

/-- The world where a step ends, with an answer or with the run. -/
def worldOf : EStateM.Result Ending (Progress σ) α → World σ
  | .ok _ after => after.world
  | .error _ after => after.world

/-- A step keeps a property of the world, however it ends. -/
def Keeps (holds : World σ → Prop) (command : Command σ α) : Prop :=
  ∀ console progress, holds progress.world → holds (worldOf (command console progress))

/-- A step changes nothing in the world. -/
def IsStill (command : Command σ α) : Prop :=
  ∀ console progress, worldOf (command console progress) = progress.world

theorem IsStill.keeps {command : Command σ α} (hStill : IsStill command) (holds : World σ → Prop) :
    Keeps holds command :=
  fun console progress hHolds => (hStill console progress).symm ▸ hHolds

theorem isStill_display (render : Console → Except Console.Fault String) :
    IsStill (display render : Command σ Unit) := by
  intro console progress
  rw [display]
  cases render console <;> rfl

theorem isStill_stop (ending : Ending) : IsStill (stop ending : Command σ α) :=
  fun _ _ => rfl

namespace Keeps

variable {holds : World σ → Prop}

theorem pure (answer : α) : Keeps holds (Pure.pure answer : Command σ α) :=
  fun _ _ hHolds => hHolds

theorem bind {command : Command σ α} {next : α → Command σ β} (hCommand : Keeps holds command)
    (hNext : ∀ answer, Keeps holds (next answer)) : Keeps holds (command >>= next) := by
  intro console progress hHolds
  have hHalfway := hCommand console progress hHolds
  cases hFirst : command console progress with
  | ok answer middle =>
      rw [hFirst] at hHalfway
      rw [bind_ok hFirst]
      exact hNext answer console middle hHalfway
  | error ending middle =>
      rw [hFirst] at hHalfway
      rw [bind_error hFirst]
      exact hHalfway

theorem ite {condition : Prop} [Decidable condition] {command other : Command σ α} (hCommand : Keeps holds command)
    (hOther : Keeps holds other) : Keeps holds (if condition then command else other) := by
  split
  · exact hCommand
  · exact hOther

theorem say (text : String) : Keeps holds (Command.say text) :=
  (isStill_display _).keeps holds

theorem sayIn (style : Console.Style) (text : String) : Keeps holds (Command.sayIn style text) :=
  say _

theorem refuse (complaint : Complaint) : Keeps holds (Command.refuse complaint : Command σ α) :=
  (sayIn _ _).bind fun _ => (isStill_stop _).keeps holds

theorem orRefuse (wrap : ε → Complaint) (found : Except ε α) :
    Keeps holds (Command.orRefuse wrap found : Command σ α) := by
  cases found with
  | ok answer => exact pure answer
  | error error => exact refuse _

/-- Lines one below the other. -/
theorem forM_say (texts : List String) : Keeps holds (texts.forM Command.say : Command σ Unit) := by
  induction texts with
  | nil => exact pure ()
  | cons text texts ih => exact (say text).bind fun _ => ih

end Keeps

/-- A step with a problem leaves the files as they are. -/
theorem keeps_files_deal (files : Files) (problem : Problem) (session : Problem.Session σ α) :
    Keeps (·.files = files) (deal problem session) := by
  intro console progress hFiles
  rw [deal]
  cases session problem (.start progress.world.store) <;> exact hFiles

/-- A step with a problem that only asks questions changes nothing in the world. -/
theorem isStill_deal (problem : Problem) {session : Problem.Session σ α} {post : α → Prop}
    (hAsks : Problem.Session.Asks post session) : IsStill (deal problem session) := by
  intro console progress
  have hUnchanged := hAsks problem (.start progress.world.store)
  rw [deal]
  generalize session problem (.start progress.world.store) = result at hUnchanged ⊢
  have hSame {after : Observed σ} (hStore : after.state = progress.world.store) :
      ({ progress.world with store := after.state } : World σ) = progress.world := by
    rw [hStore]
  cases hUnchanged with
  | ok _ hStore => exact hSame hStore
  | error hStore => exact hSame hStore

end Command
end PlanLogic
