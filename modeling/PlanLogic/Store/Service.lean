import PlanLogic.Store.Basic

/-!
# Stores as services

The program reaches a store through single commands: questions, and changes of the value of one key.  A command that
is meant for values of one kind is refused where a value of another kind is kept, and every command is refused when
the store is out of reach.  A command that is refused changes nothing.

The program works with any store.  The laws of stores say what the answers are and what the changes leave.  They leave
open in which order the members of a set, the fields of a table and the keys of a database come.
-/

namespace PlanLogic

/-- Why a store refuses a command. -/
inductive StoreError where
  | unreachable (message : String)
  | wrongKind (message : String)
deriving Repr, DecidableEq

/-- The wording of a refusal. -/
def StoreError.message : StoreError → String
  | .unreachable message => message
  | .wrongKind message => message

/-! ## Commands -/

/-- A question, with the type of its answer. -/
inductive Query : Type → Type where
  | text (key : String) : Query (Option String)
  | members (key : String) : Query (List String)
  | isMember (key member : String) : Query Bool
  | fields (key : String) : Query (List (String × String))
  | fieldNames (key : String) : Query (List String)
  | field (key name : String) : Query (Option String)
  | keysMatching (pattern : String) : Query (List String)

/-- A change of the value of a key. -/
inductive Change where
  | setText (key text : String)
  | addMember (key member : String)
  | removeMember (key member : String)
  | setField (key name value : String)
  | delete (key : String)
deriving Repr, DecidableEq

/-- The key that a question is about and the kind of value that it is meant for, unless it is about all keys. -/
def Query.subject? : Query α → Option (String × StoredKind)
  | .text key => some (key, .text)
  | .members key => some (key, .set)
  | .isMember key _ => some (key, .set)
  | .fields key => some (key, .table)
  | .fieldNames key => some (key, .table)
  | .field key _ => some (key, .table)
  | .keysMatching _ => none

namespace Change

/-- The key whose value changes. -/
def key : Change → String
  | .setText key _ => key
  | .addMember key _ => key
  | .removeMember key _ => key
  | .setField key _ _ => key
  | .delete key => key

/-- The kind of value that a change is meant for, unless it replaces any value. -/
def kind? : Change → Option StoredKind
  | .setText _ _ => none
  | .addMember _ _ => some .set
  | .removeMember _ _ => some .set
  | .setField _ _ _ => some .table
  | .delete _ => none

end Change

/-- A store that answers questions about its numbered databases and changes them. -/
class StoreService (σ : Type) where
  ask : σ → Int → Query α → Except StoreError α
  change : σ → Int → Change → Except StoreError σ

/-! ## Laws -/

/-- The values under the keys of a database. -/
abbrev Contents := String → Option StoredValue

namespace Contents

variable (contents : Contents)

/-- The members of the set at a key. -/
def members (key : String) : List String :=
  ((contents key).map StoredValue.members).getD []

/-- The fields of the table at a key. -/
def fields (key : String) : List (String × String) :=
  ((contents key).map StoredValue.fields).getD []

/-- A key has no value, or one of a given kind. -/
def Allows (key : String) (kind : StoredKind) : Prop :=
  ∀ value, contents key = some value → value.kind = kind

/-- A question finds the kind of value that it is meant for. -/
def Fits (query : Query α) : Prop :=
  ∀ key kind, query.subject? = some (key, kind) → contents.Allows key kind

/-- A change finds the kind of value that it is meant for. -/
def FitsChange (change : Change) : Prop :=
  ∀ kind, change.kind? = some kind → contents.Allows change.key kind

/-- The answers to a question. -/
def Answers : {α : Type} → Query α → α → Prop
  | _, .text key, answer => answer = (contents key).bind StoredValue.text?
  | _, .members key, answer => answer.Perm (contents.members key)
  | _, .isMember key member, answer => answer = (contents.members key).contains member
  | _, .fields key, answer => answer.Perm (contents.fields key)
  | _, .fieldNames key, answer => answer.Perm ((contents.fields key).map Prod.fst)
  | _, .field key name, answer => answer = Store.lookup? name (contents.fields key)
  | _, .keysMatching pattern, answer =>
    ∀ key, key ∈ answer ↔ (contents key).isSome = true ∧ Store.matchesKey pattern key = true

/-- The value of its key after a change.  A set that becomes empty disappears. -/
def result : Change → Option StoredValue
  | .setText _ text => some (.text text)
  | .addMember key member =>
    let members := contents.members key
    some (.set (if members.contains member then members else members ++ [member]))
  | .removeMember key member =>
    let members := contents.members key
    if members.contains member then
      let left := members.filter (· != member)
      if left.isEmpty then none else some (.set left)
    else
      contents key
  | .setField key name value => some (.table (Store.put name value (contents.fields key)))
  | .delete _ => none

end Contents

/-- Two values are the same but for the order of members and fields. -/
inductive StoredValue.Same : StoredValue → StoredValue → Prop
  | text (content : String) : Same (.text content) (.text content)
  | set {members others : List String} : members.Perm others → Same (.set members) (.set others)
  | table {fields others : List (String × String)} : fields.Perm others → Same (.table fields) (.table others)

/-- The laws of stores. -/
class LawfulStore (σ : Type) [StoreService σ] where
  /-- Whether the store can be reached. -/
  reachable : σ → Prop
  contents : σ → Int → Contents
  ask_unreachable : ∀ {α : Type} {store : σ} (number : Int) (query : Query α), ¬ reachable store →
    ∃ message, StoreService.ask store number query = .error (.unreachable message)
  ask_wrongKind : ∀ {α : Type} {store : σ} {number : Int} {query : Query α}, reachable store →
    ¬ (contents store number).Fits query →
      ∃ message, StoreService.ask store number query = .error (.wrongKind message)
  ask_answers : ∀ {α : Type} {store : σ} {number : Int} {query : Query α}, reachable store →
    (contents store number).Fits query →
      ∃ answer, StoreService.ask store number query = .ok answer ∧ (contents store number).Answers query answer
  change_unreachable : ∀ {store : σ} (number : Int) (change : Change), ¬ reachable store →
    ∃ message, StoreService.change store number change = .error (.unreachable message)
  change_wrongKind : ∀ {store : σ} {number : Int} {change : Change}, reachable store →
    ¬ (contents store number).FitsChange change →
      ∃ message, StoreService.change store number change = .error (.wrongKind message)
  /-- The key of a change gets its result; all other keys and databases stay as they are. -/
  change_result : ∀ {store : σ} {number : Int} {change : Change}, reachable store →
    (contents store number).FitsChange change →
      ∃ next, StoreService.change store number change = .ok next ∧ reachable next ∧
        Option.Rel StoredValue.Same (contents next number change.key) ((contents store number).result change) ∧
        (∀ key, key ≠ change.key → contents next number key = contents store number key) ∧
        ∀ other, other ≠ number → contents next other = contents store other

end PlanLogic
