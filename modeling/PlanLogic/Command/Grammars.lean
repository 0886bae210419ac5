import PlanLogic.CommandLine.Grammar

/-!
# The commands of the program

The grammars of the command line: one for the program, one for each command, and one for each command on the
state of a problem.
-/

namespace PlanLogic
namespace Grammars

open CommandLine

/-- The name of the program. -/
def program : String := "plantree"

/-! ## Switches -/

/-- The variables around a condition. -/
def scope : Switch where
  names := ["--params"]
  arity := .one
  placeholder := "PARAMS"
  help := "Enclosing variables, e.g. '?r - robot ?l - room'"

/-- The objects that replace the variables. -/
def objects : Switch where
  names := ["--replace"]
  arity := .many
  placeholder := "REPLACE"
  help := "Objects bound to the enclosing variables, in order"

/-- The file with the facts. -/
def file : Switch where
  names := ["--state"]
  arity := .one
  placeholder := "STATE_PATH"
  help := "Path to .state file"

/-- The state of a problem instead of a file. -/
def stored : Switch where
  names := ["--redis"]
  help := "Use the persistent state in Redis"

/-- The database of a problem. -/
def database : Switch where
  names := ["--db"]
  arity := .one
  whole := true
  placeholder := "DB"
  help := "Redis db"

/-- The namespace of a problem. -/
def problemName : Switch where
  names := ["--namespace"]
  arity := .one
  placeholder := "NAMESPACE"
  help := "Problem namespace (default: active namespace)"

/-- The nodes of a condition. -/
def nodes : Switch where
  names := ["-t", "--tree"]
  help := "Show lowered tree nodes"

/-- The result in the file. -/
def write : Switch where
  names := ["-w", "--write"]
  help := "Write the result back to the .state file"

/-- The switches that go with a condition. -/
def questionSwitches : List Switch := [scope, objects]

/-- The switches that say where a problem is kept. -/
def problemSwitches : List Switch := [database, problemName]

/-- The switches that say what a condition is evaluated against. -/
def baseSwitches : List Switch := [file, stored] ++ problemSwitches

/-! ## Commands -/

/-- The condition of a command. -/
def condition : Operand where
  name := "condition"
  help := "Condition text, e.g. '(and (robot_at ?r ?l))'"

/-- The grammar of a command with operands. -/
def command (name : String) (switches : List Switch) (operands : List Operand) : Grammar where
  program := program ++ " " ++ name
  ownSwitches := switches
  operands := .values operands

/-- Printing a condition. -/
def print : Grammar := command "parse" (questionSwitches ++ [nodes]) [condition]

/-- Checking a condition. -/
def check : Grammar :=
  { command "check" (questionSwitches ++ baseSwitches) [condition] with
    alternatives := [file.key, stored.key] }

/-- Applying an effect. -/
def apply : Grammar :=
  { command "apply" (questionSwitches ++ baseSwitches ++ [write]) [condition] with
    alternatives := [file.key, stored.key] }

/-- Taking a plan line to pieces. -/
def action : Grammar := command "action" [] [{ name := "line", help := "Plan line" }]

/-- The commands on the state of a problem. -/
def stateChoices : List Choice :=
  [⟨"instance", "Declare an object"⟩,
   ⟨"add", "Add a predicate, e.g. '(robot_at r2d2 kitchen)'"⟩,
   ⟨"remove", "Remove a predicate"⟩,
   ⟨"set", "Set a function, e.g. '(= (battery r2d2) 80)'"⟩,
   ⟨"load", "Load facts from a .state file"⟩,
   ⟨"show", "Show the problem state"⟩,
   ⟨"clear", "Delete the problem state"⟩,
   ⟨"use", "Set the active namespace"⟩]

/-- Showing or changing the state of a problem. -/
def state : Grammar where
  program := program ++ " state"
  ownSwitches := problemSwitches
  operands := .command "state_command" true stateChoices

/-- The operands of a command on the state of a problem. -/
def stateOperands : String → List Operand
  | "instance" =>
    [{ name := "name", help := "Object name" },
     { name := "type", default? := some "object", help := "Object type" }]
  | "add" | "remove" => [{ name := "predicate", help := "Predicate text" }]
  | "set" => [{ name := "assignment", help := "Function assignment text" }]
  | "load" => [{ name := "file", help := "Path to .state file" }]
  | "use" => [{ name := "name", help := "Namespace" }]
  | _ => []

/-- The grammar of a command on the state of a problem. -/
def stateCommand (name : String) : Grammar :=
  command ("state " ++ name) [] (stateOperands name)

/-- The commands of the program. -/
def choices : List Choice :=
  [⟨"parse", "Parse a condition and print it"⟩,
   ⟨"check", "Check a condition against a state"⟩,
   ⟨"apply", "Apply an effect to a state"⟩,
   ⟨"state", "Persistent problem state"⟩,
   ⟨"action", "Split a plan line like '(move r2d2 kitchen hall):5'"⟩]

/-- The program itself. -/
def top : Grammar where
  program := program
  description := "Parse, check and apply planning conditions"
  operands := .command "command" false choices

end Grammars
end PlanLogic
