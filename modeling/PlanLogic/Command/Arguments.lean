import PlanLogic.Command.Grammars
import PlanLogic.Command.Request
import PlanLogic.CommandLine.Usage
import PlanLogic.Scope.Basic

/-!
# Requests from arguments

The arguments of the program are read under its grammar, and those after a command under the grammar of the
command.  Arguments that nothing took are refused last, those of the program itself before those of a command.
-/

namespace PlanLogic

open CommandLine

/-- Why the arguments make no request, and under which grammar that was found. -/
structure Halt where
  grammar : Grammar
  stop : Stop
deriving Repr, DecidableEq

namespace Halt

/-- What is printed: the help text if it was asked for. -/
def output (halt : Halt) : String :=
  match halt.stop with
  | .help => halt.grammar.help
  | .refused _ => ""

/-- What is reported: the usage line and the reason for refusing the arguments. -/
def diagnostics (halt : Halt) : String :=
  match halt.stop with
  | .help => ""
  | .refused refusal => halt.grammar.complaint refusal

/-- The exit status: asking for help is no failure. -/
def status (halt : Halt) : Nat :=
  match halt.stop with
  | .help => 0
  | .refused _ => 2

end Halt

/-- What some arguments say under a grammar. -/
def readUnder (dialect : Dialect) (grammar : Grammar) (arguments : List String) : Except Halt Given :=
  (grammar.read dialect arguments).mapError fun stop => ⟨grammar, stop⟩

namespace Question

/-- The condition that was given. -/
def ofGiven (given : Given) : Question where
  text := given.operand 0
  scopeText := (given.text? Grammars.scope.key).getD ""
  objects := (given.values? Grammars.objects.key).getD []

end Question

namespace Problem

/-- The namespace that is meant when the switch for it is used without a value. -/
def unnamed : String := "[]"

/-- The problem that was chosen. -/
def ofGiven (given : Given) : Problem where
  database := ((given.text? Grammars.database.key).bind wholeNumber?).getD 0
  fixed := (given.values? Grammars.problemName.key).map fun values => values.head?.getD unnamed

end Problem

namespace Base

/-- The fact base that was chosen. -/
def ofGiven (given : Given) : Base :=
  if given.uses Grammars.stored.key then
    .problem (Problem.ofGiven given)
  else
    .file ((given.text? Grammars.file.key).getD "")

end Base

namespace StateRequest

/-- The request that a command on the state of a problem makes. -/
def ofGiven (command : String) (given : Given) : StateRequest :=
  let operand := given.operand 0
  match command with
  | "instance" => .declare ⟨operand, given.operand 1⟩
  | "add" => .add operand
  | "remove" => .remove operand
  | "set" => .assign operand
  | "load" => .load operand
  | "clear" => .clear
  | "use" => .activate operand
  | _ => .list

end StateRequest

namespace Request

/-- A request under construction, with the arguments that nothing took. -/
abbrev Draft := Request × List String

/-- The request of a command on the state of a problem. -/
def ofStateCommand (dialect : Dialect) (problem : Problem) (command : String) (arguments : List String) :
    Except Halt Draft :=
  (readUnder dialect (Grammars.stateCommand command) arguments).map fun given =>
    (.state problem (StateRequest.ofGiven command given), given.extras)

/-- The request of the command for the state of a problem. -/
def ofState (dialect : Dialect) (arguments : List String) : Except Halt Draft :=
  match readUnder dialect Grammars.state arguments with
  | .error halt => .error halt
  | .ok given =>
    let (command, rest) := given.command?.getD ("", [])
    (ofStateCommand dialect (Problem.ofGiven given) command rest).map fun draft =>
      (draft.1, given.extras ++ draft.2)

/-- The request of a command. -/
def ofCommand (dialect : Dialect) (command : String) (arguments : List String) : Except Halt Draft :=
  match command with
  | "parse" => (readUnder dialect Grammars.print arguments).map fun given =>
    (.print (Question.ofGiven given) (given.uses Grammars.nodes.key), given.extras)
  | "check" => (readUnder dialect Grammars.check arguments).map fun given =>
    (.check (Question.ofGiven given) (Base.ofGiven given), given.extras)
  | "apply" => (readUnder dialect Grammars.apply arguments).map fun given =>
    (.apply (Question.ofGiven given) (Base.ofGiven given) (given.uses Grammars.write.key),
     given.extras)
  | "state" => ofState dialect arguments
  | _ => (readUnder dialect Grammars.action arguments).map fun given =>
    (.action (given.operand 0), given.extras)

/-- The request that the arguments of the program make. -/
def ofArguments (dialect : Dialect) (arguments : List String) : Except Halt Request :=
  match readUnder dialect Grammars.top arguments with
  | .error halt => .error halt
  | .ok given =>
    let draft : Except Halt Draft := match given.command? with
      | none => .ok (.overview, [])
      | some (command, rest) => ofCommand dialect command rest
    match draft with
    | .error halt => .error halt
    | .ok (request, extras) =>
      match given.extras ++ extras with
      | [] => .ok request
      | texts => .error ⟨Grammars.top, .refused (.unrecognized texts)⟩

end Request
end PlanLogic
