import PlanLogic.Command.Arguments
import PlanLogic.Command.State

/-!
# Runs of the program

A run takes the arguments of the program and the world that it can see, and gives a report and the world afterwards.
The console, the store and the dialect of the command line are those of the place where the program runs.
-/

namespace PlanLogic

open Command

/-- Prints the parts of a plan line, a line each. -/
def PlanLine.show (line : PlanLine) : Command σ Unit := do
  say ("name: " ++ line.name)
  say ("params: " ++ String.intercalate " " line.parameters)
  say ("time: " ++ toString line.time)
  sayIn .dim line.expression

/-- Does what was asked. -/
def Request.run [StoreService σ] : Request → Command σ Unit
  | .overview => emit Grammars.top.help
  | .print question withNodes => question.print withNodes
  | .check question (.file path) => question.checkFile path
  | .check question (.problem problem) => question.checkProblem problem
  | .apply question (.file path) write => question.applyFile path write
  | .apply question (.problem problem) _ => question.applyProblem problem
  | .state problem request => problem.answer request
  | .action text => do PlanLine.show (← orRefuse .planLine (PlanLine.ofText text))

/-- The report on arguments that make no request. -/
def Halt.report (halt : Halt) : Report where
  status := halt.status
  output := halt.output
  diagnostics := halt.diagnostics

/-- Runs the program. -/
def run [StoreService σ] (console : Console) (dialect : CommandLine.Dialect) (arguments : List String)
    (world : World σ) : Report × World σ :=
  match Request.ofArguments dialect arguments with
  | .ok request => Report.ofResult (request.run console { world := world })
  | .error halt => (halt.report, world)

end PlanLogic
