import PlanLogic.Command.Files
import PlanLogic.Console.Basic
import PlanLogic.ParseError
import PlanLogic.PlanLine
import PlanLogic.Problem.Session
import PlanLogic.Snapshot.Document

/-!
# Runs and reports

A run of the program is a sequence of steps: it looks at files and problems, changes them and prints.  It ends where
it asks for an exit status, or where something fails that it does not expect, such as printing.  What it has changed
and printed until then stays.

A run is reported by its output, its diagnostics and its exit status.  A check mark starts the lines that report
success, and a cross those that report failure.
-/

namespace PlanLogic

/-- What a run can see and change: files, and the store of the problems. -/
structure World (σ : Type) where
  files : Files
  store : σ
deriving Repr

/-- Why a command cannot do what it was asked to do. -/
inductive Complaint where
  /-- The condition cannot be printed because it cannot be read. -/
  | unprintable (error : ParseError)
  /-- The condition cannot be read. -/
  | condition (error : ParseError)
  | fact (error : FactError)
  | document (error : DocumentError)
  | planLine (error : PlanLineError)
  | fileMissing (path : String)
  | unknownObject (fact : Fact)
  | store (error : StoreError)
  | checkFailed
  | applyFailed
deriving Repr, DecidableEq

/-- The wording of a complaint. -/
def Complaint.message : Complaint → String
  | .unprintable error => "Parse error: " ++ error.message
  | .condition error => error.message
  | .fact error => error.message
  | .document error => error.message
  | .planLine error => error.message
  | .fileMissing path => "File not found: " ++ path
  | .unknownObject head => "Unknown instance in " ++ head.key
  | .store error => "Redis error: " ++ error.message
  | .checkFailed => "Evaluation failed"
  | .applyFailed => "Apply failed"

/-- What a run does not expect to fail: printing, and reading a number from the store while a condition is
evaluated. -/
inductive Crash where
  | print (fault : Console.Fault)
  | number (error : FactError)
deriving Repr, DecidableEq

/-- The wording of a crash. -/
def Crash.message : Crash → String
  | .print fault => fault.message
  | .number error => error.message

/-- How a run ends before its last step. -/
inductive Ending where
  | exit (status : Nat)
  | crash (crash : Crash)
deriving Repr, DecidableEq

namespace Ending

/-- The exit status. -/
def status : Ending → Nat
  | .exit status => status
  | .crash _ => 1

/-- The crash if there was one. -/
def crash? : Ending → Option Crash
  | .exit _ => none
  | .crash cause => some cause

end Ending

/-- How far a run has come: the world, and what was shown. -/
structure Progress (σ : Type) where
  world : World σ
  output : String := ""
  diagnostics : String := ""

/-- Steps of a run on a console. -/
abbrev Command (σ : Type) := ReaderT Console (EStateM Ending (Progress σ))

/-! ## Steps -/

/-- A line that reports success. -/
def successText (text : String) : String :=
  "✓ " ++ text

/-- A line that reports failure. -/
def failureText (text : String) : String :=
  "✗ " ++ text

namespace Command

variable {σ : Type}

/-- Prints something on the console; if that fails, nothing of it is printed and the run crashes. -/
def display (render : Console → Except Console.Fault String) : Command σ Unit := fun console progress =>
  match render console with
  | .ok shown => .ok () { progress with output := progress.output ++ shown }
  | .error fault => .error (.crash (.print fault)) progress

/-- Prints a text. -/
def say (text : String) : Command σ Unit :=
  display fun console => console.text text

/-- Prints a text in a style. -/
def sayIn (style : Console.Style) (text : String) : Command σ Unit :=
  say (Console.styled style text)

/-- Prints a table. -/
def tabulate (table : Console.Table) : Command σ Unit :=
  display fun console => console.table table

/-- Prints a text as it is, not through the console. -/
def emit (text : String) : Command σ Unit := fun _ progress =>
  .ok () { progress with output := progress.output ++ text }

/-- Reports diagnostics. -/
def note (diagnostics : String) : Command σ Unit := fun _ progress =>
  .ok () { progress with diagnostics := progress.diagnostics ++ diagnostics }

/-- Ends the run. -/
def stop (ending : Ending) : Command σ α := fun _ progress =>
  .error ending progress

/-- Prints a complaint and ends the run. -/
def refuse (complaint : Complaint) : Command σ α := do
  sayIn .red (failureText complaint.message)
  stop (.exit 1)

/-- Goes on with an answer, or complains about what there is instead. -/
def orRefuse (wrap : ε → Complaint) : Except ε α → Command σ α
  | .ok answer => pure answer
  | .error error => refuse (wrap error)

/-- The files. -/
def files : Command σ Files := fun _ progress =>
  .ok progress.world.files progress

/-- Gives the file at a path another text. -/
def writeFile (path text : String) : Command σ Unit := fun _ progress =>
  .ok () { progress with world := { progress.world with files := progress.world.files.write path text } }

/-- Does something with a problem; the store stays as it is left, also when there is trouble. -/
def deal (problem : Problem) (session : Problem.Session σ α) : Command σ (Except Problem.Trouble α) :=
  fun _ progress =>
    let kept (after : Observed σ) : Progress σ :=
      { progress with
        world := { progress.world with store := after.state }
        diagnostics := progress.diagnostics ++ after.reports }
    match session problem (.start progress.world.store) with
    | .ok answer after => .ok (.ok answer) (kept after)
    | .error trouble after => .ok (.error trouble) (kept after)

end Command

/-! ## Reports -/

/-- What a run shows, and its crash if there was one. -/
structure Report where
  status : Nat
  output : String := ""
  diagnostics : String := ""
  crash? : Option Crash := none
deriving Repr, DecidableEq

/-- The report on a run, and the world afterwards. -/
def Report.ofResult : EStateM.Result Ending (Progress σ) Unit → Report × World σ
  | .ok () after => (⟨0, after.output, after.diagnostics, none⟩, after.world)
  | .error ending after => (⟨ending.status, after.output, after.diagnostics, ending.crash?⟩, after.world)

end PlanLogic
