import PlanLogic.Store.Glob

/-!
# The store

A store holds numbered databases.  A database maps keys to values of three kinds: a text, a set of texts, and
a table of named fields.  A set or table that holds nothing has no key, and a database that holds nothing is
not there.  The order of keys, members and fields carries no meaning.
-/

namespace PlanLogic

/-- A value of the store. -/
inductive StoredValue where
  | text (text : String)
  | set (members : List String)
  | table (fields : List (String × String))
deriving Repr, DecidableEq

/-- The kinds of values. -/
inductive StoredKind where
  | text
  | set
  | table
deriving Repr, DecidableEq

namespace StoredValue

/-- The kind of a value. -/
def kind : StoredValue → StoredKind
  | .text _ => .text
  | .set _ => .set
  | .table _ => .table

/-- The members of a set. -/
def members : StoredValue → List String
  | .set elements => elements
  | _ => []

/-- The fields of a table. -/
def fields : StoredValue → List (String × String)
  | .table entries => entries
  | _ => []

/-- The text of a text value. -/
def text? : StoredValue → Option String
  | .text content => some content
  | _ => none

end StoredValue

namespace Store

/-- The value of the first entry for a key. -/
def lookup? [DecidableEq κ] (key : κ) : List (κ × α) → Option α
  | [] => none
  | entry :: entries => if entry.1 = key then some entry.2 else lookup? key entries

/-- A list of entries without those for a key. -/
def without [DecidableEq κ] (key : κ) (entries : List (κ × α)) : List (κ × α) :=
  entries.filter fun entry => !decide (entry.1 = key)

/-- A list of entries in which a key has the given value; a new key comes last. -/
def put [DecidableEq κ] (key : κ) (value : α) : List (κ × α) → List (κ × α)
  | [] => [(key, value)]
  | entry :: entries =>
    if entry.1 = key then (key, value) :: entries else entry :: put key value entries

theorem lookup?_without_self [DecidableEq κ] (key : κ) (entries : List (κ × α)) :
    lookup? key (without key entries) = none := by
  induction entries with
  | nil => rfl
  | cons entry entries ih =>
      by_cases hKey : entry.1 = key
      · simpa [without, hKey] using ih
      · simpa [without, lookup?, hKey] using ih

theorem lookup?_without_ne [DecidableEq κ] {key other : κ} (hOther : other ≠ key)
    (entries : List (κ × α)) : lookup? other (without key entries) = lookup? other entries := by
  induction entries with
  | nil => rfl
  | cons entry entries ih =>
      by_cases hKey : entry.1 = key
      · have hNe : key ≠ other := fun hEq => hOther hEq.symm
        simpa [without, lookup?, hKey, hNe] using ih
      · by_cases hEntry : entry.1 = other
        · simp [without, lookup?, hEntry, hOther]
        · simpa [without, lookup?, hKey, hEntry] using ih

@[simp] theorem lookup?_put_self [DecidableEq κ] (key : κ) (value : α) (entries : List (κ × α)) :
    lookup? key (put key value entries) = some value := by
  induction entries with
  | nil => simp [put, lookup?]
  | cons entry entries ih =>
      by_cases hKey : entry.1 = key <;> simp [put, lookup?, hKey, ih]

theorem lookup?_put_ne [DecidableEq κ] {key other : κ} (hOther : other ≠ key) (value : α)
    (entries : List (κ × α)) : lookup? other (put key value entries) = lookup? other entries := by
  have hNe : key ≠ other := fun hEq => hOther hEq.symm
  induction entries with
  | nil => simp [put, lookup?, hNe]
  | cons entry entries ih =>
      by_cases hKey : entry.1 = key
      · simp [put, lookup?, hKey, hNe]
      · by_cases hEntry : entry.1 = other
        · simp [put, lookup?, hEntry, hOther]
        · simp [put, lookup?, hKey, hEntry, ih]

end Store

/-- The keys of a database and their values. -/
abbrev Database := List (String × StoredValue)

namespace Database

/-- The value of a key. -/
def get? (database : Database) (key : String) : Option StoredValue :=
  Store.lookup? key database

/-- The database with a key set to a value. -/
def set (database : Database) (key : String) (value : StoredValue) : Database :=
  Store.put key value database

/-- The database without a key. -/
def delete (database : Database) (key : String) : Database :=
  Store.without key database

/-- The members of the set at a key. -/
def members (database : Database) (key : String) : List String :=
  ((database.get? key).map StoredValue.members).getD []

/-- The fields of the table at a key. -/
def fields (database : Database) (key : String) : List (String × String) :=
  ((database.get? key).map StoredValue.fields).getD []

/-- Adds a member to the set at a key. -/
def addMember (database : Database) (key member : String) : Database :=
  let members := database.members key
  if members.contains member then database else database.set key (.set (members ++ [member]))

/-- Removes a member from the set at a key; a set that becomes empty disappears. -/
def removeMember (database : Database) (key member : String) : Database :=
  let members := database.members key
  if members.contains member then
    let left := members.filter (· != member)
    if left.isEmpty then database.delete key else database.set key (.set left)
  else
    database

/-- Sets a field of the table at a key. -/
def setField (database : Database) (key field value : String) : Database :=
  database.set key (.table (Store.put field value (database.fields key)))

/-- The database without the keys that a pattern matches. -/
def deleteMatching (database : Database) (pattern : String) : Database :=
  database.filter fun entry => !Store.matchesKey pattern entry.1

end Database

/-- Numbered databases; one that is not listed is empty. -/
abbrev Store := List (Int × Database)

namespace Store

/-- The store that holds nothing. -/
def empty : Store := []

/-- The database with a number. -/
def database (store : Store) (number : Int) : Database :=
  (lookup? number store).getD []

/-- The store with one database changed. -/
def onDatabase (store : Store) (number : Int) (step : Database → Database) : Store :=
  let changed := step (store.database number)
  if changed.isEmpty then without number store else put number changed store

@[simp] theorem database_onDatabase_self (store : Store) (number : Int)
    (step : Database → Database) :
    (store.onDatabase number step).database number = step (store.database number) := by
  by_cases hEmpty : (step (store.database number)).isEmpty
  · have hNil := List.isEmpty_iff.mp hEmpty
    simp [onDatabase, database] at *
    simp [hNil, lookup?_without_self]
  · simp only [onDatabase, hEmpty]
    simp [database]

theorem database_onDatabase_ne {number other : Int} (hOther : other ≠ number) (store : Store)
    (step : Database → Database) :
    (store.onDatabase number step).database other = store.database other := by
  unfold onDatabase database
  dsimp only
  split
  · rw [lookup?_without_ne hOther]
  · rw [lookup?_put_ne hOther]

end Store
end PlanLogic
