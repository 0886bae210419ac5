import PlanLogic.Command.Conditions

/-!
# Commands on the state of a problem

Texts are read before the store is asked, so a fault in a text is reported even when the store cannot be reached.
A command that fails half-way keeps the lines it has printed and the changes it has made.
-/

namespace PlanLogic
namespace Problem

open Command

variable {σ : Type} [StoreService σ]

/-- Does something with a problem, or complains about the trouble there was. -/
def dealt (problem : Problem) (session : Session σ α) : Command σ α := do
  match ← deal problem session with
  | .ok answer => return answer
  | .error (.store error) => refuse (.store error)
  | .error (.fact error) => refuse (.fact error)

/-- Prints that something was done. -/
def confirm (text : String) : Command σ Unit :=
  say (successText text)

/-- Declares an object. -/
def declareOn (problem : Problem) (object : Instance) : Command σ Unit := do
  problem.dealt (Session.declare object)
  confirm (object.name ++ " - " ++ object.type)

/-- Adds the fact that a text denotes. -/
def addOn (problem : Problem) (text : String) : Command σ Unit := do
  let fact ← orRefuse .fact (Fact.ofText text)
  if ← problem.dealt (Session.add fact) then
    confirm ("Added " ++ fact.key)
  else
    refuse (.unknownObject fact)

/-- Removes the fact that a text denotes. -/
def removeOn (problem : Problem) (text : String) : Command σ Unit := do
  let fact ← orRefuse .fact (Fact.ofText text)
  problem.dealt (Session.remove fact)
  confirm ("Removed " ++ fact.key)

/-- Stores the number that a text gives to a head. -/
def assignOn (problem : Problem) (text : String) : Command σ Unit := do
  let assignment ← orRefuse .fact (Assignment.ofText text)
  problem.dealt (Session.write assignment)
  confirm assignment.text

/-- Stores everything in the file at a path. -/
def loadOn (problem : Problem) (path : String) : Command σ Unit := do
  let snapshot ← loadSnapshot path
  problem.dealt (Session.load snapshot)
  confirm ("Loaded " ++ toString snapshot.facts.length ++ " predicates, " ++
    toString snapshot.assignments.length ++ " functions")

/-- The lines about the declared objects, if there are any. -/
def instanceLines (objects : List Instance) : List String :=
  if objects.isEmpty then
    []
  else
    "# Instances" :: objects.map (fun object => object.name ++ " - " ++ object.type) ++ [""]

/-- Shows the state of a problem. -/
def listOn (problem : Problem) : Command σ Unit := do
  sayIn .dim ("namespace: " ++ (← problem.dealt Session.name))
  (instanceLines (← problem.dealt Session.instances)).forM say
  let snapshot ← problem.dealt Session.snapshot
  say snapshot.text

/-- Deletes the state of a problem; the last line names the namespace that the problem has afterwards. -/
def clearOn (problem : Problem) : Command σ Unit := do
  problem.dealt Session.clear
  confirm ("Cleared " ++ (← problem.dealt Session.name))

/-- Makes a namespace the active one of the database. -/
def activateOn (problem : Problem) (name : String) : Command σ Unit := do
  problem.dealt (Session.activate name)
  confirm ("Active namespace: " ++ (← problem.dealt Session.activeName))

/-- Does what is asked of the state of a problem. -/
def answer (problem : Problem) : StateRequest → Command σ Unit
  | .declare object => problem.declareOn object
  | .add text => problem.addOn text
  | .remove text => problem.removeOn text
  | .assign text => problem.assignOn text
  | .load path => problem.loadOn path
  | .list => problem.listOn
  | .clear => problem.clearOn
  | .activate name => problem.activateOn name

end Problem
end PlanLogic
