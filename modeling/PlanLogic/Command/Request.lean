import PlanLogic.Problem.Basic

/-!
# Requests

What a run of the program is asked to do, as data: the command with its operands and the values of its switches.
-/

namespace PlanLogic

/-- A condition as it is given to the program: its text, a typed list of the variables around it, and the
objects that replace these, in order. -/
structure Question where
  text : String
  scopeText : String := ""
  objects : List String := []
deriving Repr, DecidableEq

/-- What a condition is evaluated against: the facts in a file or the state of a problem. -/
inductive Base where
  | file (path : String)
  | problem (problem : Problem)
deriving Repr, DecidableEq

/-- What can be asked of the state of a problem. -/
inductive StateRequest where
  | declare (object : Instance)
  | add (text : String)
  | remove (text : String)
  | assign (text : String)
  | load (path : String)
  | list
  | clear
  | activate (name : String)
deriving Repr, DecidableEq

/-- What the program is asked to do. -/
inductive Request where
  /-- To show what the program can do. -/
  | overview
  /-- To print a condition, perhaps with its nodes. -/
  | print (question : Question) (withNodes : Bool)
  /-- To say whether a condition holds. -/
  | check (question : Question) (base : Base)
  /-- To make an effect true, perhaps in the file itself. -/
  | apply (question : Question) (base : Base) (write : Bool)
  /-- To show or change the state of a problem. -/
  | state (problem : Problem) (request : StateRequest)
  /-- To take a plan line to pieces. -/
  | action (line : String)
deriving Repr, DecidableEq

namespace Request

/-- The file that a request reads. -/
def path? : Request → Option String
  | .check _ (.file path) => some path
  | .apply _ (.file path) _ => some path
  | .state _ (.load path) => some path
  | _ => none

end Request
end PlanLogic
