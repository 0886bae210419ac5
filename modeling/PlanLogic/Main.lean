import PlanLogic.Command.Run
import PlanLogic.Console.Standard
import PlanLogic.Store.Server

/-!
# The program

Reads the file that a request names, runs the program on the plain console, and writes the file back if its text has
changed.  The program has no connection to a server of its own, so commands on a stored problem report that it is
down.
-/

namespace PlanLogic

/-- The files that a run may read. -/
def readFiles (path? : Option String) : IO Files :=
  match path? with
  | none => return []
  | some path => do
    match ← (IO.FS.readFile path).toBaseIO with
    | .ok text => return [(path, text)]
    | .error _ => return []

/-- Writes those files whose text is another than before. -/
def writeFiles (before after : Files) : IO Unit :=
  after.forM fun entry => do
    if !before.contains entry then
      IO.FS.writeFile entry.1 entry.2

end PlanLogic

open PlanLogic in
/-- Runs the program on its arguments. -/
def main (arguments : List String) : IO UInt32 := do
  let files ← readFiles ((Request.ofArguments .late arguments).toOption.bind Request.path?)
  let server : Server := ⟨Store.empty, false⟩
  let (report, world) := run .standard .late arguments ⟨files, server⟩
  writeFiles files world.files
  IO.print report.output
  IO.eprint report.diagnostics
  if let some crash := report.crash? then
    IO.eprintln crash.message
  return UInt32.ofNat report.status
