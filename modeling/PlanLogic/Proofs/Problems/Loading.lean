import PlanLogic.Proofs.Problems.ReadingBack

/-!
# Loading documents

A problem keeps facts and heads as their texts and numbers as theirs, and different facts and heads have different
texts.  So what a document describes is found again after it was loaded into a namespace without keys: nothing is
lost, merged or made up, and the order of the texts takes the place of that of the document.  Everything is stored
then, so that loading the document once more changes nothing.
-/

namespace PlanLogic

/-! ## Lists in order of a key -/

/-- Elements with different keys are in strict order. -/
theorem pairwise_sortedBy {key : α → String} {xs : List α} (hKeys : (xs.map key).Nodup) :
    (sortedBy key xs).Pairwise fun a b => key a < key b := by
  have hTrans (a b c : α) (hFirst : decide (key a ≤ key b) = true) (hSecond : decide (key b ≤ key c) = true) :
      decide (key a ≤ key c) = true :=
    decide_eq_true (String.le_trans (of_decide_eq_true hFirst) (of_decide_eq_true hSecond))
  have hTotal (a b : α) : (decide (key a ≤ key b) || decide (key b ≤ key a)) = true := by
    rw [Bool.or_eq_true, decide_eq_true_iff, decide_eq_true_iff]
    exact String.le_total (key a) (key b)
  have hOrder := List.pairwise_mergeSort hTrans hTotal xs
  have hDistinct : ((sortedBy key xs).map key).Nodup := ((Problem.perm_sortedBy key xs).map key).nodup_iff.mpr hKeys
  refine (hOrder.and (List.pairwise_map.mp hDistinct)).imp fun hBoth => ?_
  exact lt_of_le_of_ne (of_decide_eq_true hBoth.1) hBoth.2

/-- Two strictly ordered lists of the same elements are the same list. -/
theorem eq_of_perm_of_pairwise (key : α → String) {xs ys : List α} (hPerm : xs.Perm ys)
    (hXs : xs.Pairwise fun a b => key a < key b) (hYs : ys.Pairwise fun a b => key a < key b) : xs = ys :=
  hPerm.eq_of_pairwise (fun _ _ _ _ hLess hMore => absurd hMore (String.lt_asymm hLess)) hXs hYs

theorem Fact.nodup_map_key {facts : List Fact} (hFacts : ∀ fact ∈ facts, fact.Spelled) (hNodup : facts.Nodup) :
    (facts.map key).Nodup :=
  hNodup.map_on fun _ hFact _ hOther => key_injective (hFacts _ hFact) (hFacts _ hOther)

namespace Snapshot

variable {state found other : Snapshot}

namespace Sound

variable (hSound : state.Sound)

include hSound

theorem nodup_keys : (state.facts.map Fact.key).Nodup :=
  Fact.nodup_map_key (fun fact hMem => (hSound.facts_writable fact hMem).spelled) hSound.facts_nodup

theorem nodup_headKeys : (state.assignments.map fun assignment => assignment.head.key).Nodup := by
  have hHeads := Fact.nodup_map_key (fun head hMem => (hSound.heads_writable head hMem).spelled) hSound.heads_nodup
  rwa [heads, List.map_map] at hHeads

/-- The field of a number that the snapshot holds is the only one for its head. -/
theorem lookup?_field {assignment : Assignment} (hMem : assignment ∈ state.assignments) :
    Store.lookup? assignment.head.key (state.assignments.map Assignment.field) =
      some (Decimal.fullText assignment.value) := by
  refine Store.lookup?_of_mem ?_ (List.mem_map_of_mem hMem)
  rw [List.map_map]
  exact hSound.nodup_headKeys

end Sound

/-- A snapshot holds what another one holds, in the order of the texts. -/
structure IsSortingOf (found state : Snapshot) : Prop where
  facts : found.facts.Perm state.facts
  facts_sorted : found.facts.Pairwise fun fact other => fact.key < other.key
  assignments : found.assignments.Perm state.assignments
  heads_sorted : found.assignments.Pairwise fun assignment other => assignment.head.key < other.head.key

namespace IsSortingOf

theorem sound (hSorting : found.IsSortingOf state) (hSound : state.Sound) : found.Sound := by
  have hHeads : found.heads.Perm state.heads := hSorting.assignments.map Assignment.head
  exact ⟨hSorting.facts.nodup_iff.mpr hSound.facts_nodup, hHeads.nodup_iff.mpr hSound.heads_nodup,
    fun fact hMem => hSound.facts_writable fact (hSorting.facts.mem_iff.mp hMem),
    fun head hMem => hSound.heads_writable head (hHeads.mem_iff.mp hMem)⟩

/-- What is sorted stays as it is when it is sorted. -/
theorem eq (hSorting : found.IsSortingOf state) (hAgain : other.IsSortingOf found) : other = found := by
  have hFacts := eq_of_perm_of_pairwise Fact.key hAgain.facts hAgain.facts_sorted hSorting.facts_sorted
  have hAssignments := eq_of_perm_of_pairwise (fun assignment : Assignment => assignment.head.key) hAgain.assignments
    hAgain.heads_sorted hSorting.heads_sorted
  cases other
  cases found
  rw [mk.injEq]
  exact ⟨hFacts, hAssignments⟩

end IsSortingOf

end Snapshot

namespace Problem

open Snapshot

variable {problem : Problem} {database : Database} {state : Snapshot} {server : Server}

/-! ## What is stored is not stored again -/

/-- Changes in order of which none makes a difference. -/
theorem foldl_eq_self {change : Database → α → Database} {xs : List α}
    (hSame : ∀ x ∈ xs, change database x = database) : xs.foldl change database = database := by
  induction xs with
  | nil => rfl
  | cons x xs ih =>
      rw [List.foldl_cons, hSame x List.mem_cons_self]
      exact ih fun other hMem => hSame other (List.mem_cons_of_mem x hMem)

namespace Stores

variable (hStores : problem.Stores database state)

include hStores

theorem insert_of_mem {fact : Fact} (hMem : fact ∈ state.facts) : problem.insert fact database = database := by
  refine Database.addMember_of_mem ?_
  rw [hStores.facts]
  exact List.mem_map_of_mem hMem

theorem write_of_mem {assignment : Assignment} (hMem : assignment ∈ state.assignments) :
    problem.write assignment database = database := by
  refine Database.setField_of_lookup? ?_
  rw [hStores.values]
  exact hStores.sound.lookup?_field hMem

/-- A snapshot that is stored is not changed by loading it. -/
theorem load_eq_self : problem.load state database = database := by
  have hFacts : state.facts.foldl (fun current fact => problem.insert fact current) database = database :=
    foldl_eq_self fun _ hMem => hStores.insert_of_mem hMem
  rw [load, hFacts]
  exact foldl_eq_self fun _ hMem => hStores.write_of_mem hMem

theorem exists_sorting : ∃ found, problem.snapshot database = .ok found ∧ found.IsSortingOf state :=
  ⟨_, hStores.snapshot_eq, perm_sortedBy _ _, pairwise_sortedBy hStores.sound.nodup_keys, perm_sortedBy _ _,
    pairwise_sortedBy hStores.sound.nodup_headKeys⟩

end Stores

/-! ## Loading on a server -/

/-- The namespace of a problem holds no key on a server. -/
def VacantOn (problem : Problem) (server : Server) : Prop :=
  let database := server.store.database problem.database
  ∀ part ∈ ["instances", "predicates", "functions"], database.get? (keyOf (problem.name database) part) = none

theorem perform_load (hReachable : server.reachable = true) (state : Snapshot) : problem.perform server (.load state) =
    { server with store := server.store.onDatabase problem.database (problem.load state) } := by
  rw [perform, changed, Server.change, if_pos hReachable]

/-- What is loaded into a namespace without keys is stored there. -/
theorem stores_perform_load (hSound : state.Sound) (hReachable : server.reachable = true)
    (hVacant : problem.VacantOn server) :
    problem.Stores ((problem.perform server (.load state)).store.database problem.database) state := by
  rw [perform_load hReachable, Store.database_onDatabase_self]
  exact (Represents.load hSound hVacant).stores

/-- A sound snapshot is read back from a namespace without keys into which it was loaded, sorted by the texts. -/
theorem ask_snapshot_perform_load (hSound : state.Sound) (hReachable : server.reachable = true)
    (hVacant : problem.VacantOn server) :
    ∃ found, (problem.perform server (.load state)).ask problem.database problem.snapshot = .ok (.ok found) ∧
      found.IsSortingOf state := by
  obtain ⟨found, hFound, hSorting⟩ := (stores_perform_load hSound hReachable hVacant).exists_sorting
  refine ⟨found, ?_, hSorting⟩
  have hLoaded : (problem.perform server (.load state)).reachable = true := by
    rw [perform_load hReachable]
    exact hReachable
  rw [Server.ask, if_pos hLoaded, hFound]

/-- Loading a sound snapshot for the second time changes nothing. -/
theorem perform_load_perform_load (hSound : state.Sound) (hReachable : server.reachable = true)
    (hVacant : problem.VacantOn server) :
    problem.perform (problem.perform server (.load state)) (.load state) = problem.perform server (.load state) := by
  have hAgain := (stores_perform_load hSound hReachable hVacant).load_eq_self
  rw [perform_load hReachable, Store.database_onDatabase_self] at hAgain
  have hLoaded : ({ server with store := server.store.onDatabase problem.database (problem.load state) } :
      Server).reachable = true :=
    hReachable
  rw [perform_load hReachable, perform_load hLoaded, Store.onDatabase_onDatabase hAgain]

/-- A document that is loaded into a namespace without keys is read back from there as it is, sorted by the texts of
facts and heads.  Loading it again changes nothing, and what was read back can be loaded into any other namespace
without keys, to be read back from there in turn. -/
theorem snapshot_perform_load {text : String} (hText : Snapshot.ofText text = .ok state)
    (hReachable : server.reachable = true) (hVacant : problem.VacantOn server) :
    let loaded := problem.perform server (.load state)
    problem.perform loaded (.load state) = loaded ∧
      ∃ found, loaded.ask problem.database problem.snapshot = .ok (.ok found) ∧ found.IsSortingOf state ∧
        ∀ (second : Problem) (other : Server), other.reachable = true → second.VacantOn other →
          (second.perform other (.load found)).ask second.database second.snapshot = .ok (.ok found) := by
  intro loaded
  have hSound := Snapshot.sound_of_ofText hText
  obtain ⟨found, hFound, hSorting⟩ := ask_snapshot_perform_load hSound hReachable hVacant
  refine ⟨perform_load_perform_load hSound hReachable hVacant, found, hFound, hSorting,
    fun second other hOther hEmpty => ?_⟩
  obtain ⟨again, hAgain, hSame⟩ := ask_snapshot_perform_load (hSorting.sound hSound) hOther hEmpty
  rwa [hSorting.eq hSame] at hAgain

/-- Here a document with numbers that are not finite goes into the active namespace of a database that keeps another
problem, and what is read back from there into a namespace of a second database. -/
theorem snapshot_perform_load_active :
    let text := "(q b)\n(= (g) -inf)\n(p a)\n(= (f a) nan)\n(q b)\n(= (g) 0.1)"
    let state : Snapshot := ⟨[⟨"q", ["b"]⟩, ⟨"p", ["a"]⟩],
      [⟨⟨"g", []⟩, 0.1⟩, ⟨⟨"f", ["a"]⟩, Decimal.Binary64.notANumber.toFloat⟩]⟩
    let server : Server := ⟨[(0, [("plantree:state:namespace", .text "home"),
      ("plantree:other:predicates", .set ["(x)"])])], true⟩
    let problem : Problem := ⟨0, none⟩
    let second : Problem := ⟨1, some "copy"⟩
    let loaded := problem.perform server (.load state)
    Snapshot.ofText text = .ok state ∧ server.reachable = true ∧ problem.VacantOn server ∧
      loaded.reachable = true ∧ second.VacantOn loaded ∧
      problem.perform loaded (.load state) = loaded ∧
      ∃ found, loaded.ask problem.database problem.snapshot = .ok (.ok found) ∧ found.IsSortingOf state ∧
        (second.perform loaded (.load found)).ask second.database second.snapshot = .ok (.ok found) := by
  intro text state server problem second loaded
  have hText : Snapshot.ofText text = .ok state := by decide +kernel
  have hVacant : problem.VacantOn server := by
    rw [VacantOn]
    decide +kernel
  have hSecond : second.VacantOn loaded := by
    rw [VacantOn]
    decide +kernel
  obtain ⟨hAgain, found, hFound, hSorting, hCopied⟩ := snapshot_perform_load hText rfl hVacant
  exact ⟨hText, rfl, hVacant, rfl, hSecond, hAgain, found, hFound, hSorting, hCopied second loaded rfl hSecond⟩

end Problem
end PlanLogic
