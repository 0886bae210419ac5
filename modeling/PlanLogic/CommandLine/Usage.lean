import PlanLogic.CommandLine.Reading
import PlanLogic.Text.Spacing

/-!
# Usage and help

The usage line shows every switch and operand of a grammar once.  The help text puts it before the description
and two lists, one of the operands or commands and one of the switches, with what they are for in a column of
its own.
-/

namespace PlanLogic
namespace CommandLine

namespace Switch

/-- A name of a switch with its values. -/
def withValues (switch : Switch) (name : String) : String :=
  match switch.arity with
  | .flag => name
  | .one => name ++ " " ++ switch.placeholder
  | .many => name ++ " [" ++ switch.placeholder ++ " ...]"

/-- A switch in the usage line, by its first name. -/
def usage (switch : Switch) : String :=
  switch.withValues (switch.names.head?.getD "")

/-- A switch in the list of switches, by all its names. -/
def heading (switch : Switch) : String :=
  String.intercalate ", " (switch.names.map switch.withValues)

end Switch

namespace Operands

/-- The names of some commands as one placeholder; the braces belong to the text. -/
def choiceList (choices : List Choice) : String :=
  "\x7b" ++ String.intercalate "," (choices.map Choice.name) ++ "\x7d"

/-- The operands in the usage line. -/
def usage : Operands → List String
  | .values operands =>
    operands.map fun operand =>
      if operand.default?.isNone then operand.name else "[" ++ operand.name ++ "]"
  | .command _ _ choices => [choiceList choices ++ " ..."]

end Operands

/-- A line of a list in a help text: how far it is indented, its heading and its explanation. -/
structure Entry where
  indent : Nat
  heading : String
  explanation : String

namespace Entry

/-- The list of the operands or commands of a grammar. -/
def ofOperands : Operands → List Entry
  | .values operands => operands.map fun operand => ⟨2, operand.name, operand.help⟩
  | .command _ _ choices =>
    ⟨2, Operands.choiceList choices, ""⟩ ::
      choices.map fun choice => ⟨4, choice.name, choice.help⟩

/-- The list of the switches of a grammar. -/
def ofSwitches (switches : List Switch) : List Entry :=
  switches.map fun switch => ⟨2, switch.heading, switch.help⟩

/-- The column of the explanations for given headings. -/
def column (entries : List Entry) : Nat :=
  min 24 (entries.foldl (fun width entry => max width entry.heading.length) 0 + 4)

/-- An entry with its explanation at a column; a heading that reaches the column has a line of its own. -/
def text (column : Nat) (entry : Entry) : String :=
  let start := Text.spaces entry.indent ++ entry.heading.toList
  if entry.explanation.isEmpty then
    String.ofList start ++ "\n"
  else if start.length + 2 ≤ column then
    String.ofList (Text.padEnd column start) ++ entry.explanation ++ "\n"
  else
    String.ofList start ++ "\n" ++ String.ofList (Text.spaces column) ++ entry.explanation ++ "\n"

/-- A titled list of entries, left out when it is empty. -/
def list (title : String) (column : Nat) (entries : List Entry) : String :=
  if entries.isEmpty then
    ""
  else
    "\n" ++ title ++ ":\n" ++ String.join (entries.map (text column))

end Entry

namespace Grammar

/-- The alternatives in the usage line. -/
def alternativesUsage (grammar : Grammar) : String :=
  "(" ++ String.intercalate " | " (grammar.exclusive.map Switch.usage) ++ ")"

/-- The switches in the usage line; the alternatives stand together in the place of the first of them. -/
def switchesUsage (grammar : Grammar) : List String :=
  grammar.switches.filterMap fun switch =>
    if !grammar.alternatives.contains switch.key then
      some ("[" ++ switch.usage ++ "]")
    else if grammar.exclusive.head? = some switch then
      some grammar.alternativesUsage
    else
      none

/-- The usage line. -/
def usage (grammar : Grammar) : String :=
  "usage: " ++ String.intercalate " "
    (grammar.program :: grammar.switchesUsage ++ grammar.operands.usage) ++ "\n"

/-- The help text. -/
def help (grammar : Grammar) : String :=
  let operands := Entry.ofOperands grammar.operands
  let switches := Entry.ofSwitches grammar.switches
  let column := Entry.column (operands ++ switches)
  let description := if grammar.description.isEmpty then "" else "\n" ++ grammar.description ++ "\n"
  grammar.usage ++ description ++ Entry.list "positional arguments" column operands ++
    Entry.list "options" column switches

/-- The lines that report a refusal. -/
def complaint (grammar : Grammar) (refusal : Refusal) : String :=
  grammar.usage ++ grammar.program ++ ": error: " ++ refusal.message ++ "\n"

end Grammar
end CommandLine
end PlanLogic
