import PlanLogic.Evaluation.OnSnapshot
import PlanLogic.Problem.Basic
import PlanLogic.Store.Service

/-!
# Problems in any store

What is done with a problem, as the commands that are sent to its store.  A problem without a namespace of its own asks
for the active one before every command about a key.  A command that is refused ends the whole; what was changed
before stays changed.
-/

namespace PlanLogic
namespace Problem

/-- Why something cannot be done with a problem: the store refuses a command, or a text in it cannot be read. -/
inductive Trouble where
  | store (error : StoreError)
  | fact (error : FactError)
deriving Repr, DecidableEq

/-- Steps with a problem in a store. -/
abbrev Session (σ : Type) := ReaderT Problem (EStateM Trouble (Observed σ))

namespace Session

variable {σ : Type} [StoreService σ]

/-- Asks a question of the database. -/
def ask (query : Query α) : Session σ α := fun problem observed =>
  match StoreService.ask observed.state problem.database query with
  | .ok answer => .ok answer observed
  | .error error => .error (.store error) observed

/-- Changes the database. -/
def change (change : Change) : Session σ Unit := fun problem observed =>
  match StoreService.change observed.state problem.database change with
  | .ok next => .ok () { observed with state := next }
  | .error error => .error (.store error) observed

/-- What was read from the store. -/
def reading (found : Except FactError α) : Session σ α :=
  match found with
  | .ok answer => pure answer
  | .error error => throw (.fact error)

/-! ## Namespaces -/

/-- The active namespace. -/
def activeName : Session σ String := do
  return (← ask (.text activeKey)).getD defaultNamespace

/-- The namespace of the problem. -/
def name : Session σ String := fun problem =>
  match problem.fixed with
  | some name => pure name
  | none => activeName problem

/-- The key of a part of the problem. -/
def key (part : String) : Session σ String := do
  return keyOf (← name) part

/-- Makes another namespace the active one. -/
def activate (name : String) : Session σ Unit :=
  change (.setText activeKey name)

/-! ## Instances -/

/-- Declares an object. -/
def declare (object : Instance) : Session σ Unit := do
  change (.setField (← key "instances") object.name object.type)

/-- The declared objects, by name. -/
def instances : Session σ (List Instance) := do
  let fields ← ask (.fields (← key "instances"))
  return sortedBy Instance.name (fields.map fun field => ⟨field.1, field.2⟩)

/-- The names of the declared objects. -/
def objects : Session σ (List String) := do
  return (← instances).map Instance.name

/-! ## Facts -/

/-- Whether a fact is stored. -/
def holds (fact : Fact) : Session σ Bool := do
  ask (.isMember (← key "predicates") fact.key)

/-- Stores a fact. -/
def insert (fact : Fact) : Session σ Unit := do
  change (.addMember (← key "predicates") fact.key)

/-- Stores a fact if it may be added: once an object is declared, every argument has to be. -/
def add (fact : Fact) : Session σ Bool := do
  let known ← ask (.fieldNames (← key "instances"))
  if known.isEmpty || fact.args.all known.contains then
    insert fact
    return true
  else
    return false

/-- Removes a fact. -/
def remove (fact : Fact) : Session σ Unit := do
  change (.removeMember (← key "predicates") fact.key)

/-- The stored facts, by text. -/
def facts : Session σ (List Fact) := do
  let texts ← ask (.members (← key "predicates"))
  return sortedBy Fact.key (← reading (texts.mapM Fact.ofText))

/-! ## Numbers -/

/-- The number of the head with a given text. -/
def value? (text : String) : Session σ (Option Float) := do
  match ← ask (.field (← key "functions") text) with
  | none => return none
  | some stored =>
    match storedNumber? stored with
    | none => throw (.fact (.value stored))
    | some value => return some value

/-- Stores the number of a head. -/
def write (assignment : Assignment) : Session σ Unit := do
  change (.setField (← key "functions") assignment.head.key (Decimal.fullText assignment.value))

/-- The stored numbers, by the text of their heads. -/
def assignments : Session σ (List Assignment) := do
  let fields ← ask (.fields (← key "functions"))
  return sortedBy (fun assignment => assignment.head.key) (← reading (fields.mapM readField))

/-! ## The whole state -/

/-- The stored facts and numbers as a snapshot. -/
def snapshot : Session σ Snapshot := do
  return ⟨← facts, ← assignments⟩

/-- Stores everything that a snapshot holds; declared instances are not consulted. -/
def load (snapshot : Snapshot) : Session σ Unit := do
  snapshot.facts.forM insert
  snapshot.assignments.forM write

/-- Deletes every key that the pattern of the namespace matches. -/
def clear : Session σ Unit := do
  let keys ← ask (.keysMatching (allKeys (← name)))
  keys.forM fun key => change (.delete key)

end Session

instance [StoreService σ] : FactBase (Session σ) where
  holds := Session.holds
  add := Session.add
  remove fact := do
    Session.remove fact
    return true
  value? := Session.value?
  write assignment := do
    Session.write assignment
    return true
  objects := Session.objects
  report diagnostic := fun _ observed => .ok () (observed.note diagnostic)

end Problem
end PlanLogic
