import PlanLogic.Fact.Reading
import PlanLogic.Snapshot.Basic
import PlanLogic.Store.Basic

/-!
# Problems in the store

A problem is the state kept under a namespace of one database: the declared instances with their types, the
facts, and the numbers of heads.  A problem without a namespace of its own uses the active one, which the
database itself names.  Facts and heads are stored as their text, and numbers with their full text.
-/

namespace PlanLogic

/-- Where a problem is kept: a database and, unless it is the active one, a namespace. -/
structure Problem where
  database : Int
  fixed : Option String
deriving Repr, DecidableEq

/-- An object of a problem with its type. -/
structure Instance where
  name : String
  type : String
deriving Repr, DecidableEq

/-- The elements of a list in order of a key; elements with equal keys keep their order. -/
def sortedBy (key : α → String) (xs : List α) : List α :=
  xs.mergeSort fun a b => decide (key a ≤ key b)

namespace Problem

/-- The key of the active namespace. -/
def activeKey : String := "plantree:state:namespace"

/-- The namespace that is active when none was chosen. -/
def defaultNamespace : String := "default"

/-- The active namespace of a database. -/
def activeNamespace (database : Database) : String :=
  ((database.get? activeKey).bind StoredValue.text?).getD defaultNamespace

/-- The database with another active namespace. -/
def activate (database : Database) (name : String) : Database :=
  database.set activeKey (.text name)

/-- The key of a part of a namespace. -/
def keyOf (name part : String) : String :=
  "plantree:" ++ name ++ ":" ++ part

/-- The pattern of all keys of a namespace. -/
def allKeys (name : String) : String :=
  keyOf name "*"

/-- The namespace of a problem at this moment. -/
def name (problem : Problem) (database : Database) : String :=
  problem.fixed.getD (activeNamespace database)

/-- The key of the declared instances. -/
def instancesKey (problem : Problem) (database : Database) : String :=
  keyOf (problem.name database) "instances"

/-- The key of the facts. -/
def factsKey (problem : Problem) (database : Database) : String :=
  keyOf (problem.name database) "predicates"

/-- The key of the numbers. -/
def valuesKey (problem : Problem) (database : Database) : String :=
  keyOf (problem.name database) "functions"

/-! ## Instances -/

/-- Declares an object. -/
def declare (problem : Problem) (object : Instance) (database : Database) : Database :=
  database.setField (problem.instancesKey database) object.name object.type

/-- The declared objects, by name. -/
def instances (problem : Problem) (database : Database) : List Instance :=
  sortedBy Instance.name
    ((database.fields (problem.instancesKey database)).map fun field => ⟨field.1, field.2⟩)

/-- The names of the declared objects. -/
def objects (problem : Problem) (database : Database) : List String :=
  (problem.instances database).map Instance.name

/-! ## Facts -/

/-- Whether a fact is stored. -/
def holds (problem : Problem) (database : Database) (fact : Fact) : Bool :=
  (database.members (problem.factsKey database)).contains fact.key

/-- Whether a fact may be added: once an object is declared, every argument has to be. -/
def admits (problem : Problem) (database : Database) (fact : Fact) : Bool :=
  -- Without declarations every object is allowed.
  let known := (database.fields (problem.instancesKey database)).map Prod.fst
  known.isEmpty || fact.args.all known.contains

/-- Stores a fact. -/
def insert (problem : Problem) (fact : Fact) (database : Database) : Database :=
  database.addMember (problem.factsKey database) fact.key

/-- Stores a fact if it may be added. -/
def add (problem : Problem) (fact : Fact) (database : Database) : Bool × Database :=
  if problem.admits database fact then
    (true, problem.insert fact database)
  else
    (false, database)

/-- Removes a fact. -/
def remove (problem : Problem) (fact : Fact) (database : Database) : Database :=
  database.removeMember (problem.factsKey database) fact.key

/-- The stored facts, by text. -/
def facts (problem : Problem) (database : Database) : Except FactError (List Fact) :=
  (sortedBy Fact.key) <$> (database.members (problem.factsKey database)).mapM Fact.ofText

/-! ## Numbers -/

/-- The number that a stored text denotes. -/
def storedNumber? (text : String) : Option Float :=
  Decimal.numeral? text.toList

/-- The number of the head with a given text. -/
def value? (problem : Problem) (database : Database) (key : String) : Option Float :=
  (Store.lookup? key (database.fields (problem.valuesKey database))).bind storedNumber?

/-- Stores the number of a head. -/
def write (problem : Problem) (assignment : Assignment) (database : Database) : Database :=
  database.setField (problem.valuesKey database) assignment.head.key
    (Decimal.fullText assignment.value)

/-- The assignment that a field of the numbers denotes. -/
def readField (field : String × String) : Except FactError Assignment :=
  match Fact.ofText field.1 with
  | .error e => .error e
  | .ok head =>
    match storedNumber? field.2 with
    | none => .error (.value field.2)
    | some value => .ok ⟨head, value⟩

/-- The stored numbers, by the text of their heads. -/
def assignments (problem : Problem) (database : Database) : Except FactError (List Assignment) :=
  sortedBy (fun assignment => assignment.head.key) <$>
    (database.fields (problem.valuesKey database)).mapM readField

/-! ## The whole state -/

/-- The stored facts and numbers as a snapshot. -/
def snapshot (problem : Problem) (database : Database) : Except FactError Snapshot :=
  match problem.facts database with
  | .error e => .error e
  | .ok facts => (problem.assignments database).map fun assignments => ⟨facts, assignments⟩

/-- Stores everything that a snapshot holds; declared instances are not consulted. -/
def load (problem : Problem) (snapshot : Snapshot) (database : Database) : Database :=
  let withFacts := snapshot.facts.foldl (fun current fact => problem.insert fact current) database
  snapshot.assignments.foldl (fun current assignment => problem.write assignment current) withFacts

/-- Deletes every key that the pattern of the namespace matches. -/
def clear (problem : Problem) (database : Database) : Database :=
  database.deleteMatching (allKeys (problem.name database))

end Problem
end PlanLogic
