import PlanLogic.Store.Basic

/-!
# What changes of a database leave

Each change of a database sets or deletes one key.  Here is what stands at that key afterwards; every other key
keeps its value.
-/

namespace PlanLogic

/-- What a list of entries holds to which an entry was put. -/
theorem Store.mem_put [DecidableEq κ] {key : κ} {value : α} {entries : List (κ × α)} {entry : κ × α}
    (hEntry : entry ∈ put key value entries) : entry = (key, value) ∨ entry ∈ entries := by
  induction entries with
  | nil => exact Or.inl (List.mem_singleton.mp hEntry)
  | cons first entries ih =>
      rw [put] at hEntry
      split at hEntry
      · rcases List.mem_cons.mp hEntry with hHere | hLater
        · exact Or.inl hHere
        · exact Or.inr (List.mem_cons_of_mem first hLater)
      · rcases List.mem_cons.mp hEntry with rfl | hLater
        · exact Or.inr List.mem_cons_self
        · exact (ih hLater).imp_right (List.mem_cons_of_mem first)

/-- Putting an entry loses no key. -/
theorem Store.mem_keys_put [DecidableEq κ] {key other : κ} {value : α} {entries : List (κ × α)}
    (hKey : other ∈ entries.map Prod.fst) : other ∈ (put key value entries).map Prod.fst := by
  induction entries with
  | nil => exact absurd hKey List.not_mem_nil
  | cons first entries ih =>
      rw [put]
      split
      · next hSame =>
          rw [List.map_cons, hSame] at hKey
          exact hKey
      · rw [List.map_cons, List.mem_cons] at hKey ⊢
        exact hKey.imp_right ih

/-- The value of an entry whose key no other entry has. -/
theorem Store.lookup?_of_mem [DecidableEq κ] {entries : List (κ × α)} (hKeys : (entries.map Prod.fst).Nodup)
    {key : κ} {value : α} (hEntry : (key, value) ∈ entries) : lookup? key entries = some value := by
  induction entries with
  | nil => exact absurd hEntry List.not_mem_nil
  | cons first entries ih =>
      rw [List.map_cons, List.nodup_cons] at hKeys
      rw [lookup?]
      rcases List.mem_cons.mp hEntry with rfl | hLater
      · rw [if_pos rfl]
      · have hOther : first.1 ≠ key := fun hSame => hKeys.1 (hSame ▸ List.mem_map_of_mem hLater)
        rw [if_neg hOther, ih hKeys.2 hLater]

/-- Putting a value that a key has changes nothing. -/
theorem Store.put_of_lookup? [DecidableEq κ] {key : κ} {value : α} {entries : List (κ × α)}
    (hValue : lookup? key entries = some value) : put key value entries = entries := by
  induction entries with
  | nil => exact absurd hValue (Option.some_ne_none _).symm
  | cons first entries ih =>
      rw [lookup?] at hValue
      rw [put]
      split at hValue
      · next hSame =>
          obtain rfl := Option.some.inj hValue
          rw [if_pos hSame, ← hSame]
      · next hOther => rw [if_neg hOther, ih hValue]

/-- A change of a database that makes no difference the second time makes none to the store either. -/
theorem Store.onDatabase_onDatabase {store : Store} {number : Int} {step : Database → Database}
    (hAgain : step (step (store.database number)) = step (store.database number)) :
    (store.onDatabase number step).onDatabase number step = store.onDatabase number step := by
  have hChanged : (store.onDatabase number step).onDatabase number step =
      if (step (store.database number)).isEmpty then
        without number (store.onDatabase number step)
      else
        put number (step (store.database number)) (store.onDatabase number step) := by
    rw [onDatabase, database_onDatabase_self, hAgain]
  rw [hChanged]
  split
  · next hEmpty =>
      rw [onDatabase, if_pos hEmpty, without, without, List.filter_filter]
      simp only [Bool.and_self]
  · next hFilled =>
      rw [onDatabase, if_neg hFilled, put_of_lookup? (lookup?_put_self number _ _)]

namespace Database

variable {database : Database} {key other : String}

/-! ## Keys -/

@[simp] theorem get?_set_self (database : Database) (key : String) (value : StoredValue) :
    (database.set key value).get? key = some value :=
  Store.lookup?_put_self key value database

theorem get?_set_ne (hOther : other ≠ key) (value : StoredValue) :
    (database.set key value).get? other = database.get? other :=
  Store.lookup?_put_ne hOther value database

@[simp] theorem get?_delete_self (database : Database) (key : String) : (database.delete key).get? key = none :=
  Store.lookup?_without_self key database

theorem get?_delete_ne (hOther : other ≠ key) : (database.delete key).get? other = database.get? other :=
  Store.lookup?_without_ne hOther database

/-- Deleting keys one after the other. -/
theorem foldl_delete (keys : List String) (database : Database) :
    keys.foldl delete database = database.filter fun entry => !keys.contains entry.1 := by
  induction keys generalizing database with
  | nil =>
      symm
      exact List.filter_eq_self.mpr fun _ _ => rfl
  | cons key keys ih =>
      rw [List.foldl_cons, ih, delete, Store.without, List.filter_filter]
      refine List.filter_congr fun entry _ => ?_
      rw [List.contains_cons, Bool.not_or, Bool.and_comm]
      rfl

/-- Deleting the keys that a pattern matches. -/
theorem get?_deleteMatching (database : Database) (pattern key : String) :
    (database.deleteMatching pattern).get? key =
      if Store.matchesKey pattern key then none else database.get? key := by
  rw [deleteMatching, get?, get?]
  induction database with
  | nil => split <;> rfl
  | cons entry database ih =>
      rw [List.filter_cons, Store.lookup?]
      by_cases hKey : entry.1 = key
      · rw [hKey, if_pos rfl]
        by_cases hMatches : Store.matchesKey pattern key = true
        · rw [hMatches, Bool.not_true, if_neg Bool.false_ne_true, ih, hMatches, if_pos rfl, if_pos rfl]
        · rw [Bool.not_eq_true] at hMatches
          rw [hMatches, Bool.not_false, if_pos rfl, Store.lookup?, if_pos hKey, if_neg Bool.false_ne_true]
      · rw [if_neg hKey, ← ih]
        split
        · rw [Store.lookup?, if_neg hKey]
        · rfl

/-! ## Sets -/

theorem members_eq_nil_of_get?_eq_none (hNone : database.get? key = none) : database.members key = [] := by
  rw [members, hNone]
  rfl

@[simp] theorem members_set_self (database : Database) (key : String) (elements : List String) :
    (database.set key (.set elements)).members key = elements := by
  rw [members, get?_set_self]
  rfl

theorem members_addMember_self (database : Database) (key member : String) :
    (database.addMember key member).members key =
      if (database.members key).contains member then
        database.members key
      else
        database.members key ++ [member] := by
  rw [addMember]
  split
  · rfl
  · rw [members_set_self]

/-- Adding a member that is there changes nothing. -/
theorem addMember_of_mem {member : String} (hMember : member ∈ database.members key) :
    database.addMember key member = database := by
  rw [addMember, if_pos (List.contains_iff_mem.mpr hMember)]

theorem get?_addMember_ne (hOther : other ≠ key) (member : String) :
    (database.addMember key member).get? other = database.get? other := by
  rw [addMember]
  split
  · rfl
  · exact get?_set_ne hOther _

theorem members_removeMember_self (database : Database) (key member : String) :
    (database.removeMember key member).members key = (database.members key).filter (· != member) := by
  rw [removeMember]
  split
  · dsimp only
    split
    · next hLast =>
        rw [members_eq_nil_of_get?_eq_none (get?_delete_self database key), List.isEmpty_iff.mp hLast]
    · rw [members_set_self]
  · next hAbsent =>
      symm
      rw [List.filter_eq_self]
      intro present hPresent
      rw [bne_iff_ne]
      rintro rfl
      exact hAbsent (List.contains_iff_mem.mpr hPresent)

theorem get?_removeMember_ne (hOther : other ≠ key) (member : String) :
    (database.removeMember key member).get? other = database.get? other := by
  rw [removeMember]
  split
  · dsimp only
    split
    · exact get?_delete_ne hOther
    · exact get?_set_ne hOther _
  · rfl

/-! ## Tables -/

theorem fields_eq_nil_of_get?_eq_none (hNone : database.get? key = none) : database.fields key = [] := by
  rw [fields, hNone]
  rfl

theorem fields_setField_self (database : Database) (key field value : String) :
    (database.setField key field value).fields key = Store.put field value (database.fields key) := by
  rw [setField, fields, get?_set_self]
  rfl

/-- Setting a field to the value that it has changes nothing. -/
theorem setField_of_lookup? {field value : String} (hValue : Store.lookup? field (database.fields key) = some value) :
    database.setField key field value = database := by
  have hTable : database.get? key = some (.table (database.fields key)) := by
    cases hFound : database.get? key with
    | none =>
        rw [fields_eq_nil_of_get?_eq_none hFound] at hValue
        exact absurd hValue (Option.some_ne_none _).symm
    | some stored =>
        have hFields : database.fields key = stored.fields := by
          rw [fields, hFound]
          rfl
        rw [hFields] at hValue ⊢
        cases stored with
        | table entries => rfl
        | text _ => exact absurd hValue (Option.some_ne_none _).symm
        | set _ => exact absurd hValue (Option.some_ne_none _).symm
  rw [setField, Store.put_of_lookup? hValue]
  exact Store.put_of_lookup? hTable

theorem get?_setField_ne (hOther : other ≠ key) (field value : String) :
    (database.setField key field value).get? other = database.get? other :=
  get?_set_ne hOther _

end Database
end PlanLogic
