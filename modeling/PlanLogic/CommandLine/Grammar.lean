/-!
# Grammars of command lines

A grammar says which arguments a program takes: switches, which start with a dash and may take values, and then
either operands or one of several commands, each with a grammar of its own for what follows it.  Every grammar
has the switch that asks for help.
-/

namespace PlanLogic
namespace CommandLine

/-- How many values a switch takes. -/
inductive Arity where
  | flag
  | one
  | many
deriving Repr, DecidableEq

/-- A switch: its names, of which the last is the full one, its values, and what it is for.  The placeholder
stands for a value in the help text. -/
structure Switch where
  names : List String
  arity : Arity := .flag
  whole : Bool := false
  placeholder : String := ""
  help : String
deriving Repr, DecidableEq

namespace Switch

/-- The full name of a switch. -/
def key (switch : Switch) : String :=
  (switch.names.getLast?).getD ""

/-- The name by which messages refer to a switch. -/
def label (switch : Switch) : String :=
  String.intercalate "/" switch.names

/-- The switch that asks for help. -/
def forHelp : Switch where
  names := ["-h", "--help"]
  help := "show this help message and exit"

end Switch

/-- An operand: its name, its value when it is left out, and what it is for.  An operand without such a value
must be given. -/
structure Operand where
  name : String
  default? : Option String := none
  help : String
deriving Repr, DecidableEq

/-- A command and what it does. -/
structure Choice where
  name : String
  help : String
deriving Repr, DecidableEq

/-- What comes besides the switches: operands, of which those that may be left out come last, or a command. -/
inductive Operands where
  | values (operands : List Operand)
  | command (name : String) (required : Bool) (choices : List Choice)
deriving Repr, DecidableEq

/-- A grammar.  Of the alternatives, given by their full names, exactly one has to be used, unless there are
none. -/
structure Grammar where
  program : String
  description : String := ""
  ownSwitches : List Switch := []
  alternatives : List String := []
  operands : Operands
deriving Repr, DecidableEq

namespace Grammar

/-- All switches of a grammar. -/
def switches (grammar : Grammar) : List Switch :=
  Switch.forHelp :: grammar.ownSwitches

/-- The switch with a given name. -/
def switch? (grammar : Grammar) (name : String) : Option Switch :=
  grammar.switches.find? fun switch => switch.names.contains name

/-- The switches of which exactly one has to be used. -/
def exclusive (grammar : Grammar) : List Switch :=
  grammar.switches.filter fun switch => grammar.alternatives.contains switch.key

end Grammar
end CommandLine
end PlanLogic
