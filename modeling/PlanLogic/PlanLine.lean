import PlanLogic.Decimal.Literal
import PlanLogic.Text.Blank
import PlanLogic.Text.Lowercase

/-!
# Plan lines

A plan line is an action between parentheses, followed by a colon and its start time if it has one.  Lines are
compared in a reduced form: in lower case, with single spaces, and without spaces just inside parentheses.
-/

namespace PlanLogic

/-- A reason for refusing a plan line. -/
inductive PlanLineError where
  /-- The text after the colon is no whole number. -/
  | time (text : String)
  /-- The text is not enclosed in parentheses. -/
  | notAction (text : String)
deriving Repr, DecidableEq

/-- The wording of a reason. -/
def PlanLineError.message : PlanLineError → String
  | .time text => "Invalid action time: " ++ text
  | .notAction text => "Expected action: (name arg ...), got: " ++ text

/-- The text of an action and its start time. -/
structure PlanLine where
  expression : String
  time : Int
deriving Repr, DecidableEq

namespace PlanLine

/-- The time of a line that gives none. -/
def noTime : Int := -1

/-- A text of single spaces without those after an opening parenthesis. -/
def tightenAfterOpening : List Char → List Char
  | '(' :: ' ' :: cs => '(' :: tightenAfterOpening cs
  | c :: cs => c :: tightenAfterOpening cs
  | [] => []

/-- A text of single spaces without those before a closing parenthesis. -/
def tightenBeforeClosing : List Char → List Char
  | ' ' :: ')' :: cs => ')' :: tightenBeforeClosing cs
  | c :: cs => c :: tightenBeforeClosing cs
  | [] => []

/-- The reduced form of a line. -/
def reduce (cs : List Char) : List Char :=
  tightenBeforeClosing <| tightenAfterOpening <|
    Text.join [' '] (Text.words (Text.lowercase (Text.strip cs)))

/-- A text split at its first colon. -/
def splitTime (cs : List Char) : List Char × Option (List Char) :=
  match cs.dropWhile (· != ':') with
  | [] => (cs, none)
  | _ :: time => (cs.takeWhile (· != ':'), some time)

/-- The text inside the parentheses that enclose an action. -/
def inside? (cs : List Char) : Option (List Char) :=
  match cs with
  | '(' :: rest => if rest.getLast? = some ')' then some (Text.strip rest.dropLast) else none
  | _ => none

/-- The plan line with a reduced action and a time. -/
def ofAction (line : String) (action : List Char) (time : Int) : Except PlanLineError PlanLine :=
  match inside? action with
  | some expression => .ok ⟨String.ofList expression, time⟩
  | none => .error (.notAction line)

/-- The plan line that a text denotes. -/
def ofText (line : String) : Except PlanLineError PlanLine :=
  match splitTime (reduce line.toList) with
  | (action, none) => ofAction line action noTime
  | (action, some time) =>
    match Decimal.whole? (Text.strip time) with
    | none => .error (.time (String.ofList time))
    | some time => ofAction line (Text.strip action) time

/-- The pieces of the action between single spaces. -/
def pieces (line : PlanLine) : List String :=
  (Text.splitAt ' ' line.expression.toList).map String.ofList

/-- The name of the action. -/
def name (line : PlanLine) : String :=
  line.pieces.head?.getD ""

/-- The parameters of the action. -/
def parameters (line : PlanLine) : List String :=
  (line.pieces.drop 1).filter fun piece => !piece.isEmpty

end PlanLine
end PlanLogic
