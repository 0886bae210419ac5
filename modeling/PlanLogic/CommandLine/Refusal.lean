import PlanLogic.CommandLine.Grammar
import PlanLogic.Text.Quoted

/-!
# Refused command lines

The reasons for refusing the arguments of a program, and their wording.
-/

namespace PlanLogic
namespace CommandLine

/-- A reason for refusing arguments.  Switches and operands are named by their labels. -/
inductive Refusal where
  /-- An abbreviation fits several switches. -/
  | ambiguous (text : String) (candidates : List String)
  /-- A value is attached to a switch that takes none. -/
  | valueIgnored (label value : String)
  /-- The value of a switch is not there. -/
  | valueMissing (label : String)
  /-- The value of a switch is no whole number. -/
  | valueNotWhole (label value : String)
  /-- Two alternatives are used together. -/
  | conflict (label other : String)
  /-- There is no such command. -/
  | unknownCommand (label value : String) (choices : List String)
  /-- Operands are left out that must be given. -/
  | operandsMissing (labels : List String)
  /-- None of the alternatives is used. -/
  | alternativeMissing (labels : List String)
  /-- Nothing in the grammar takes these arguments. -/
  | unrecognized (texts : List String)
deriving Repr, DecidableEq

namespace Refusal

/-- The wording of a reason that concerns one switch or operand. -/
def about (label message : String) : String :=
  "argument " ++ label ++ ": " ++ message

/-- The wording of a reason. -/
def message : Refusal → String
  | .ambiguous text candidates =>
    "ambiguous option: " ++ text ++ " could match " ++ String.intercalate ", " candidates
  | .valueIgnored label value => about label ("ignored explicit argument " ++ Text.quoted value)
  | .valueMissing label => about label "expected one argument"
  | .valueNotWhole label value => about label ("invalid int value: " ++ Text.quoted value)
  | .conflict label other => about label ("not allowed with argument " ++ other)
  | .unknownCommand label value choices =>
    about label ("invalid choice: " ++ Text.quoted value ++ " (choose from " ++
      String.intercalate ", " (choices.map Text.quoted) ++ ")")
  | .operandsMissing labels =>
    "the following arguments are required: " ++ String.intercalate ", " labels
  | .alternativeMissing labels =>
    "one of the arguments " ++ String.intercalate " " labels ++ " is required"
  | .unrecognized texts => "unrecognized arguments: " ++ String.intercalate " " texts

end Refusal
end CommandLine
end PlanLogic
