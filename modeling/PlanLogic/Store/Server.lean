import PlanLogic.Store.Service

/-!
# Servers

A store lives on a server that may be out of reach; then every access fails, and the store stays as it is.  A server
is a store that the program can work with: it looks at the kind of a value before it answers a question about it or
changes it.
-/

namespace PlanLogic

/-- A store and whether it can be reached. -/
structure Server where
  store : Store
  reachable : Bool
deriving Repr

/-- The server cannot be reached. -/
inductive Unreachable where
  | serverDown
deriving Repr, DecidableEq

/-- The wording of a failed access. -/
def Unreachable.message : Unreachable → String
  | .serverDown => "server is down"

namespace Server

/-- A server that can be reached and stores nothing. -/
def empty : Server := ⟨Store.empty, true⟩

/-- Asks a question of a database. -/
def ask (server : Server) (number : Int) (question : Database → α) : Except Unreachable α :=
  if server.reachable then .ok (question (server.store.database number)) else .error .serverDown

/-- Changes a database. -/
def change (server : Server) (number : Int) (step : Database → Database) :
    Except Unreachable Server :=
  if server.reachable then
    .ok { server with store := server.store.onDatabase number step }
  else
    .error .serverDown

end Server

/-! ## Single commands -/

namespace Database

/-- Whether a key has no value, or one of a given kind. -/
def allows (database : Database) (key : String) (kind : StoredKind) : Bool :=
  (database.get? key).all fun value => value.kind == kind

/-- The answer to a question. -/
def answer (database : Database) : {α : Type} → Query α → α
  | _, .text key => (database.get? key).bind StoredValue.text?
  | _, .members key => database.members key
  | _, .isMember key member => (database.members key).contains member
  | _, .fields key => database.fields key
  | _, .fieldNames key => (database.fields key).map Prod.fst
  | _, .field key name => Store.lookup? name (database.fields key)
  | _, .keysMatching pattern => (database.map Prod.fst).filter (Store.matchesKey pattern)

/-- The database after a change. -/
def after (database : Database) : Change → Database
  | .setText key text => database.set key (.text text)
  | .addMember key member => database.addMember key member
  | .removeMember key member => database.removeMember key member
  | .setField key name value => database.setField key name value
  | .delete key => database.delete key

end Database

namespace Server

/-- What a server says to a command that is meant for another kind of value. -/
def wrongKind : StoreError :=
  .wrongKind "WRONGTYPE Operation against a key holding the wrong kind of value"

/-- What a server that is out of reach says. -/
def serverDown : StoreError :=
  .unreachable Unreachable.serverDown.message

instance : StoreService Server where
  ask server number query :=
    let database := server.store.database number
    if !server.reachable then
      .error serverDown
    else if query.subject?.all fun subject => database.allows subject.1 subject.2 then
      .ok (database.answer query)
    else
      .error wrongKind
  change server number change :=
    if !server.reachable then
      .error serverDown
    else if change.kind?.all ((server.store.database number).allows change.key) then
      .ok { server with store := server.store.onDatabase number (·.after change) }
    else
      .error wrongKind

end Server
end PlanLogic
