import PlanLogic.Proofs.Store.Databases
import PlanLogic.Store.Server

/-!
# The laws of stores

The laws leave open only the order of members, fields and keys.  So two stores that keep the same values but for
their order answer every question alike, and keep the same values after every change, as long as no table has two
fields of one name.

A server keeps the laws: its answers are those that the values under its keys give, in the order in which it keeps them.
-/

namespace PlanLogic

/-! ## Tables in another order -/

namespace Store

variable {key : String} {value : String} {entries others : List (String × String)}

theorem mem_of_lookup? (hValue : lookup? key entries = some value) : (key, value) ∈ entries := by
  induction entries with
  | nil => exact absurd hValue (Option.some_ne_none _).symm
  | cons entry entries ih =>
      rw [lookup?] at hValue
      split at hValue
      · next hKey =>
          obtain rfl := Option.some.inj hValue
          exact hKey ▸ List.mem_cons_self
      · exact List.mem_cons_of_mem entry (ih hValue)

/-- The order of entries with different keys does not matter for what is found. -/
theorem lookup?_eq_of_perm (hPerm : entries.Perm others) (hKeys : (others.map Prod.fst).Nodup) (key : String) :
    lookup? key entries = lookup? key others := by
  have hEntries : (entries.map Prod.fst).Nodup := (hPerm.map Prod.fst).nodup_iff.mpr hKeys
  refine Option.ext fun value => ⟨fun hValue => ?_, fun hValue => ?_⟩
  · exact lookup?_of_mem hKeys (hPerm.mem_iff.mp (mem_of_lookup? hValue))
  · exact lookup?_of_mem hEntries (hPerm.mem_iff.mpr (mem_of_lookup? hValue))

theorem without_of_notMem (hKey : key ∉ entries.map Prod.fst) : without key entries = entries := by
  refine List.filter_eq_self.mpr fun entry hMem => ?_
  rw [Bool.not_eq_true', decide_eq_false_iff_not]
  rintro rfl
  exact hKey (List.mem_map_of_mem hMem)

/-- What is put takes the place of the entry with its key. -/
theorem perm_put (hKeys : (entries.map Prod.fst).Nodup) (value : String) :
    (put key value entries).Perm ((key, value) :: without key entries) := by
  induction entries with
  | nil => exact .refl _
  | cons entry entries ih =>
      rw [List.map_cons, List.nodup_cons] at hKeys
      rw [put]
      split
      · next hKey =>
          have hRest : without key (entry :: entries) = entries := by
            rw [without, List.filter_cons_of_neg (by simpa using hKey)]
            exact without_of_notMem (hKey ▸ hKeys.1)
          rw [hRest]
      · next hKey =>
          have hRest : without key (entry :: entries) = entry :: without key entries :=
            List.filter_cons_of_pos (by simpa using hKey)
          rw [hRest]
          exact ((ih hKeys.2).cons entry).trans (.swap _ _ _)

theorem put_perm_put (hPerm : entries.Perm others) (hKeys : (others.map Prod.fst).Nodup) (key value : String) :
    (put key value entries).Perm (put key value others) := by
  have hEntries : (entries.map Prod.fst).Nodup := (hPerm.map Prod.fst).nodup_iff.mpr hKeys
  exact (perm_put hEntries value).trans (((hPerm.filter _).cons _).trans (perm_put hKeys value).symm)

/-- Putting an entry gives no key twice. -/
theorem nodup_keys_put (hKeys : (entries.map Prod.fst).Nodup) (key value : String) :
    ((put key value entries).map Prod.fst).Nodup := by
  rw [((perm_put hKeys value).map Prod.fst).nodup_iff, List.map_cons, List.nodup_cons]
  refine ⟨fun hMem => ?_, hKeys.sublist (List.filter_sublist.map Prod.fst)⟩
  obtain ⟨entry, hEntry, hKey⟩ := List.mem_map.mp hMem
  have hOther := (List.mem_filter.mp hEntry).2
  exact absurd hKey (by simpa using hOther)

end Store

/-! ## Values that are the same but for their order -/

namespace StoredValue

variable {value other third : StoredValue}

theorem Same.refl (value : StoredValue) : value.Same value := by
  cases value with
  | text content => exact .text content
  | set members => exact .set (.refl members)
  | table fields => exact .table (.refl fields)

theorem Same.trans (hSame : value.Same other) (hNext : other.Same third) : value.Same third := by
  cases hSame with
  | text content => exact hNext
  | set hPerm =>
      cases hNext with
      | set hOther => exact .set (hPerm.trans hOther)
  | table hPerm =>
      cases hNext with
      | table hOther => exact .table (hPerm.trans hOther)

theorem Same.kind_eq (hSame : value.Same other) : value.kind = other.kind := by
  cases hSame <;> rfl

theorem rel_refl : (value : Option StoredValue) → Option.Rel Same value value
  | none => .none
  | some value => .some (.refl value)

theorem rel_trans {value other third : Option StoredValue} (hSame : Option.Rel Same value other)
    (hNext : Option.Rel Same other third) : Option.Rel Same value third := by
  cases hSame with
  | none => exact hNext
  | some hValue =>
      cases hNext with
      | some hOther => exact .some (hValue.trans hOther)

theorem perm_members {value other : Option StoredValue} (hSame : Option.Rel Same value other) :
    ((value.map members).getD []).Perm ((other.map members).getD []) := by
  cases hSame with
  | none => exact .refl []
  | some hValue =>
      cases hValue with
      | text _ => exact .refl []
      | set hPerm => exact hPerm
      | table _ => exact .refl []

theorem perm_fields {value other : Option StoredValue} (hSame : Option.Rel Same value other) :
    ((value.map fields).getD []).Perm ((other.map fields).getD []) := by
  cases hSame with
  | none => exact .refl []
  | some hValue =>
      cases hValue with
      | text _ => exact .refl []
      | set _ => exact .refl []
      | table hPerm => exact hPerm

theorem bind_text?_eq {value other : Option StoredValue} (hSame : Option.Rel Same value other) :
    value.bind text? = other.bind text? := by
  cases hSame with
  | none => rfl
  | some hValue => cases hValue <;> rfl

theorem isSome_eq {value other : Option StoredValue} (hSame : Option.Rel Same value other) :
    value.isSome = other.isSome := by
  cases hSame <;> rfl

theorem eq_set (hKind : value.kind = .set) : value = .set value.members := by
  cases value with
  | set members => rfl
  | _ => exact absurd hKind (by simp [kind])

end StoredValue

/-! ## Contents that are the same but for their order -/

namespace Contents

/-- The keys have the same values but for their order. -/
def Same (contents other : Contents) : Prop :=
  ∀ key, Option.Rel StoredValue.Same (contents key) (other key)

/-- No table has two fields of one name. -/
def NamesOnce (contents : Contents) : Prop :=
  ∀ key, ((contents.fields key).map Prod.fst).Nodup

namespace Same

variable {contents other : Contents} (hSame : contents.Same other)

include hSame

theorem members (key : String) : (contents.members key).Perm (other.members key) :=
  StoredValue.perm_members (hSame key)

theorem contains (key member : String) :
    (contents.members key).contains member = (other.members key).contains member := by
  rw [Bool.eq_iff_iff, List.contains_iff_mem, List.contains_iff_mem]
  exact (hSame.members key).mem_iff

theorem fields (key : String) : (contents.fields key).Perm (other.fields key) :=
  StoredValue.perm_fields (hSame key)

theorem allows {key : String} {kind : StoredKind} (hAllows : other.Allows key kind) : contents.Allows key kind := by
  intro value hValue
  have hRel := hSame key
  rw [hValue] at hRel
  generalize hFound : other key = found at hRel
  cases hRel with
  | some hOther => exact hOther.kind_eq.trans (hAllows _ hFound)

theorem fits {query : Query α} (hFits : other.Fits query) : contents.Fits query :=
  fun key kind hSubject => hSame.allows (hFits key kind hSubject)

theorem fitsChange {change : Change} (hFits : other.FitsChange change) : contents.FitsChange change :=
  fun kind hKind => hSame.allows (hFits kind hKind)

/-- An answer to a question is an answer about the same values in another order. -/
theorem answers (hNames : other.NamesOnce) :
    {α : Type} → {query : Query α} → {answer : α} → contents.Answers query answer → other.Answers query answer
  | _, .text key, _, hAnswer => Eq.trans hAnswer (StoredValue.bind_text?_eq (hSame key))
  | _, .members key, _, hAnswer => List.Perm.trans hAnswer (hSame.members key)
  | _, .isMember key member, _, hAnswer => Eq.trans hAnswer (hSame.contains key member)
  | _, .fields key, _, hAnswer => List.Perm.trans hAnswer (hSame.fields key)
  | _, .fieldNames key, _, hAnswer => List.Perm.trans hAnswer ((hSame.fields key).map Prod.fst)
  | _, .field key name, _, hAnswer => Eq.trans hAnswer (Store.lookup?_eq_of_perm (hSame.fields key) (hNames key) name)
  | _, .keysMatching _, _, hAnswer => fun key => (hAnswer key).trans (by rw [StoredValue.isSome_eq (hSame key)])

/-- The result of a change of the same values in another order. -/
theorem result (hNames : other.NamesOnce) (change : Change) :
    Option.Rel StoredValue.Same (contents.result change) (other.result change) := by
  cases change with
  | setText key text => exact .some (.text text)
  | addMember key member =>
      rw [Contents.result, Contents.result, hSame.contains]
      refine .some (.set ?_)
      split
      · exact hSame.members key
      · exact (hSame.members key).append_right [member]
  | removeMember key member =>
      have hLeft := (hSame.members key).filter (· != member)
      rw [Contents.result, Contents.result, hSame.contains]
      by_cases hMember : (other.members key).contains member = true
      · simp only [if_pos hMember, hLeft.isEmpty_eq]
        split
        · exact .none
        · exact .some (.set hLeft)
      · simp only [if_neg hMember]
        exact hSame key
  | setField key name value => exact .some (.table (Store.put_perm_put (hSame.fields key) (hNames key) name value))
  | delete key => exact .none

end Same
end Contents

namespace Database

variable (database : Database)

theorem members_get? (key : String) : Contents.members database.get? key = database.members key :=
  rfl

/-! ## Questions -/

theorem allows_eq_true {key : String} {kind : StoredKind} :
    database.allows key kind = true ↔ Contents.Allows database.get? key kind := by
  rw [allows, Option.all_eq_true]
  simp only [beq_iff_eq, Contents.Allows]

theorem all_subject? (query : Query α) :
    (query.subject?.all fun subject => database.allows subject.1 subject.2) = true ↔
      Contents.Fits database.get? query := by
  rw [Option.all_eq_true, Contents.Fits]
  simp only [allows_eq_true, Prod.forall]

/-- A key has a value if an entry is kept for it. -/
theorem isSome_get? (key : String) : (database.get? key).isSome = true ↔ key ∈ database.map Prod.fst := by
  rw [get?]
  induction database with
  | nil => exact iff_of_false Bool.false_ne_true List.not_mem_nil
  | cons entry entries ih =>
      rw [Store.lookup?, List.map_cons, List.mem_cons]
      split
      · next hKey => exact ⟨fun _ => Or.inl hKey.symm, fun _ => rfl⟩
      · next hKey => exact ih.trans ⟨Or.inr, fun hMem => hMem.resolve_left (Ne.symm hKey)⟩

theorem answers_answer : {α : Type} → (query : Query α) →
    Contents.Answers database.get? query (database.answer query)
  | _, .text _ => rfl
  | _, .members _ => .refl _
  | _, .isMember _ _ => rfl
  | _, .fields _ => .refl _
  | _, .fieldNames _ => .refl _
  | _, .field _ _ => rfl
  | _, .keysMatching pattern => fun key => by
      rw [answer, List.mem_filter, isSome_get?]

/-! ## Changes -/

theorem all_kind? (change : Change) :
    change.kind?.all (database.allows change.key) = true ↔ Contents.FitsChange database.get? change := by
  rw [Option.all_eq_true, Contents.FitsChange]
  simp only [allows_eq_true]

/-- A key of a change has the result of the change. -/
theorem get?_after_self {change : Change} (hFits : Contents.FitsChange database.get? change) :
    (database.after change).get? change.key = Contents.result database.get? change := by
  cases change with
  | setText key text => exact get?_set_self database key _
  | addMember key member =>
      show (database.addMember key member).get? key = _
      rw [addMember, Contents.result, members_get?]
      by_cases hMember : (database.members key).contains member = true
      · simp only [if_pos hMember]
        cases hValue : database.get? key with
        | none =>
            rw [members_eq_nil_of_get?_eq_none hValue] at hMember
            exact absurd hMember (by simp)
        | some value =>
            have hMembers : database.members key = value.members := by
              rw [Database.members, hValue]
              rfl
            rw [hMembers, ← StoredValue.eq_set (hFits .set rfl value hValue)]
      · simp only [if_neg hMember, get?_set_self]
  | removeMember key member =>
      show (database.removeMember key member).get? key = _
      rw [removeMember, Contents.result, members_get?]
      by_cases hMember : (database.members key).contains member = true
      · by_cases hLast : ((database.members key).filter (· != member)).isEmpty = true
        · simp only [if_pos hMember, if_pos hLast, get?_delete_self]
        · simp only [if_pos hMember, if_neg hLast, get?_set_self]
      · simp only [if_neg hMember]
  | setField key name value => exact get?_set_self database key _
  | delete key => exact get?_delete_self database key

theorem get?_after_ne {change : Change} {key : String} (hOther : key ≠ change.key) :
    (database.after change).get? key = database.get? key := by
  cases change with
  | setText _ _ => exact get?_set_ne hOther _
  | addMember _ member => exact get?_addMember_ne hOther member
  | removeMember _ member => exact get?_removeMember_ne hOther member
  | setField _ name value => exact get?_setField_ne hOther name value
  | delete _ => exact get?_delete_ne hOther

end Database

namespace Server

theorem ask_of_not_reachable {server : Server} (hDown : ¬ server.reachable = true) (number : Int) (query : Query α) :
    StoreService.ask server number query = .error serverDown :=
  if_pos (by simpa using hDown)

theorem ask_of_reachable {server : Server} (hUp : server.reachable = true) (number : Int) (query : Query α) :
    StoreService.ask server number query =
      if query.subject?.all fun subject => (server.store.database number).allows subject.1 subject.2 then
        .ok ((server.store.database number).answer query)
      else
        .error wrongKind :=
  if_neg (by simpa using hUp)

theorem change_of_not_reachable {server : Server} (hDown : ¬ server.reachable = true) (number : Int)
    (change : Change) : StoreService.change server number change = .error serverDown :=
  if_pos (by simpa using hDown)

theorem change_of_reachable {server : Server} (hUp : server.reachable = true) (number : Int) (change : Change) :
    StoreService.change server number change =
      if change.kind?.all ((server.store.database number).allows change.key) then
        .ok { server with store := server.store.onDatabase number (·.after change) }
      else
        .error wrongKind :=
  if_neg (by simpa using hUp)

/-- A server keeps the laws of stores. -/
instance : LawfulStore Server where
  reachable server := server.reachable = true
  contents server number := (server.store.database number).get?
  ask_unreachable number query hDown := ⟨_, ask_of_not_reachable hDown number query⟩
  ask_wrongKind {_ _ number query} hUp hOther := by
    refine ⟨_, (ask_of_reachable hUp number query).trans (if_neg ?_)⟩
    rwa [Database.all_subject?]
  ask_answers {_ _ number query} hUp hFits := by
    refine ⟨_, (ask_of_reachable hUp number query).trans (if_pos ?_), Database.answers_answer _ query⟩
    rwa [Database.all_subject?]
  change_unreachable number change hDown := ⟨_, change_of_not_reachable hDown number change⟩
  change_wrongKind {_ number change} hUp hOther := by
    refine ⟨_, (change_of_reachable hUp number change).trans (if_neg ?_)⟩
    rwa [Database.all_kind?]
  change_result {server number change} hUp hFits := by
    refine ⟨_, (change_of_reachable hUp number change).trans (if_pos ?_), hUp, ?_, fun key hOther => ?_,
      fun other hOther => ?_⟩
    · rwa [Database.all_kind?]
    · rw [Store.database_onDatabase_self, Database.get?_after_self _ hFits]
      exact StoredValue.rel_refl _
    · rw [Store.database_onDatabase_self, Database.get?_after_ne _ hOther]
    · rw [Store.database_onDatabase_ne hOther]

end Server
end PlanLogic
