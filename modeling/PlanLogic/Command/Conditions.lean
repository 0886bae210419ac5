import PlanLogic.Command.Report
import PlanLogic.Command.Request
import PlanLogic.Condition.Parser
import PlanLogic.Condition.Printer
import PlanLogic.Text.Spacing
import PlanLogic.Tree.Lowering
import PlanLogic.Tree.Rendering

/-!
# Commands on conditions

Printing a condition, checking it and making it true.  The condition is read before the file with the facts, so
of two faults that of the condition is reported.  A file is written only after the whole effect was made true, and
before that is reported.
-/

namespace PlanLogic

/-! ## Questions -/

namespace Question

/-- The scope of the variables around a condition, and the condition. -/
def read (question : Question) : Except ParseError (Scope × Option Condition) :=
  match Scope.ofText question.scopeText with
  | .error error => .error error
  | .ok scope => (Condition.ofText question.text scope).map fun condition => (scope, condition)

/-- The tree of a condition. -/
def tree (question : Question) : Except ParseError Tree :=
  question.read.map fun read => Tree.ofCondition read.2 question.objects

end Question

/-! ## Printing -/

namespace Node

/-- A node in the table of nodes, without its position. -/
def cells (node : Node) : List String :=
  [node.kind.name,
   if node.operator.isEmpty then node.change else node.operator,
   node.name,
   String.intercalate " " node.parameterNames,
   if node.kind = .number then Decimal.plainText node.value else "",
   String.intercalate ", " (node.children.map toString)]

end Node

namespace Tree

/-- The table of the nodes of a tree. -/
def table (tree : Tree) : Console.Table where
  title := "Tree (" ++ toString tree.size ++ " nodes)"
  columns :=
    [⟨"id", true⟩, ⟨"type", false⟩, ⟨"op", false⟩, ⟨"name", false⟩, ⟨"parameters", false⟩,
     ⟨"value", true⟩, ⟨"children", false⟩]
  rows := tree.nodes.mapIdx fun position node => toString position :: node.cells

end Tree

/-- The columns by which a part of a condition is indented when it is printed. -/
def printedIndent : Nat := 4

/-- The lines of a condition. -/
def printedText (scope : Scope) (condition : Option Condition) : String :=
  String.ofList (Text.expandTabs (fun _ => 1) printedIndent (Condition.bodyText scope 0 condition).toList)

open Command

/-- Prints a condition, the one line of its tree and perhaps the nodes. -/
def Question.print (question : Question) (withNodes : Bool) : Command σ Unit := do
  let (scope, condition) ← orRefuse .unprintable question.read
  say (printedText scope condition)
  let tree := Tree.ofCondition condition question.objects
  say ""
  sayIn .dim tree.rootText
  if withNodes then
    say ""
    tabulate tree.table

/-! ## Checking and applying -/

/-- The snapshot in the file at a path. -/
def Files.snapshot (files : Files) (path : String) : Except Complaint Snapshot :=
  match files.read? path with
  | none => .error (.fileMissing path)
  | some text => (Snapshot.ofText text).mapError .document

/-- Prints the verdict on a condition. -/
def reportCheck (outcome : Outcome) : Command σ Unit := do
  if !outcome.success then
    refuse .checkFailed
  else if outcome.truth then
    sayIn .green (successText "true")
  else
    sayIn .yellow (failureText "false")
    stop (.exit 2)

/-- The line that reports that an effect was made true. -/
def appliedText : String :=
  Console.styled .green (successText "Applied")

/-- Prints the verdict on an effect; the run goes on only if the effect was made true. -/
def reportApply (outcome : Outcome) : Command σ Unit :=
  if outcome.success then say appliedText else refuse .applyFailed

/-- The line that follows when the result was written to a file. -/
def writtenText (path : String) : String :=
  Console.styled .dim ("Wrote " ++ path)

/-- The snapshot in the file at a path. -/
def loadSnapshot (path : String) : Command σ Snapshot := do
  orRefuse id ((← files).snapshot path)

/-- The tree of a question and the snapshot in a file. -/
def Question.loadFile (question : Question) (path : String) : Command σ (Tree × Snapshot) := do
  let tree ← orRefuse .condition question.tree
  return (tree, ← loadSnapshot path)

/-- Evaluates a tree against a problem. -/
def evaluateOn [StoreService σ] (problem : Problem) (commit : Bool) (tree : Tree) : Command σ Outcome := do
  match ← deal problem (evaluate commit tree 0 false) with
  | .ok outcome => return outcome
  | .error (.store error) => refuse (.store error)
  | .error (.fact error) => stop (.crash (.number error))

namespace Question

/-- Checks a condition against the facts in a file. -/
def checkFile (question : Question) (path : String) : Command σ Unit := do
  let loaded ← question.loadFile path
  let reply := loaded.2.evaluated false loaded.1
  note reply.2.reports
  reportCheck reply.1

/-- Checks a condition against a problem. -/
def checkProblem [StoreService σ] (question : Question) (problem : Problem) : Command σ Unit := do
  let tree ← orRefuse .condition question.tree
  reportCheck (← evaluateOn problem false tree)

/-- Makes an effect true of the facts in a file, and writes or prints the result. -/
def applyFile (question : Question) (path : String) (write : Bool) : Command σ Unit := do
  let loaded ← question.loadFile path
  let reply := loaded.2.evaluated true loaded.1
  note reply.2.reports
  reportApply reply.1
  let text := reply.2.state.text
  if write then
    writeFile path text
    say (writtenText path)
  else
    say text

/-- Makes an effect true of a problem. -/
def applyProblem [StoreService σ] (question : Question) (problem : Problem) : Command σ Unit := do
  let tree ← orRefuse .condition question.tree
  reportApply (← evaluateOn problem true tree)

end Question
end PlanLogic
