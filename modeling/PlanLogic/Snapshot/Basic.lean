import PlanLogic.Fact.Basic

/-!
# Snapshots

A snapshot holds the facts and the numeric values of a state in memory, in the order in which they were
added.  Only a value that is already there can be written.
-/

namespace PlanLogic

/-- The facts and numeric values of a state. -/
structure Snapshot where
  facts : List Fact
  assignments : List Assignment
deriving Repr

namespace Snapshot

/-- The snapshot that holds nothing. -/
def empty : Snapshot := ⟨[], []⟩

/-- Whether a fact is there. -/
def holds (snapshot : Snapshot) (fact : Fact) : Bool :=
  snapshot.facts.contains fact

/-- Adds a fact at the end, unless it is there. -/
def add (snapshot : Snapshot) (fact : Fact) : Snapshot :=
  if snapshot.holds fact then snapshot else { snapshot with facts := snapshot.facts ++ [fact] }

/-- Removes the first occurrence of a fact. -/
def remove (snapshot : Snapshot) (fact : Fact) : Snapshot :=
  { snapshot with facts := snapshot.facts.erase fact }

/-- The number of the first head whose text is `key`. -/
def value? (snapshot : Snapshot) (key : String) : Option Float :=
  (snapshot.assignments.find? fun assignment => assignment.head.key == key).map Assignment.value

/-- Whether a head has a number. -/
def assigns (snapshot : Snapshot) (head : Fact) : Bool :=
  snapshot.assignments.any fun assignment => assignment.head == head

/-- A list of assignments with the first one for the same head replaced. -/
def replaceFirst (assignment : Assignment) : List Assignment → List Assignment
  | [] => []
  | old :: rest =>
    if old.head = assignment.head then assignment :: rest else old :: replaceFirst assignment rest

/-- Gives a head that has a number another one. -/
def write (snapshot : Snapshot) (assignment : Assignment) : Snapshot :=
  { snapshot with assignments := replaceFirst assignment snapshot.assignments }

/-- Gives a head a number, at the end of the list if it has none. -/
def assign (snapshot : Snapshot) (assignment : Assignment) : Snapshot :=
  if snapshot.assigns assignment.head then
    snapshot.write assignment
  else
    { snapshot with assignments := snapshot.assignments ++ [assignment] }

/-- Adds those names to a list that it does not hold yet, in order. -/
def addNames (names : List String) (more : List String) : List String :=
  more.foldl (fun seen name => if seen.contains name then seen else seen ++ [name]) names

/-- The names of the objects in the facts, in order of first occurrence. -/
def objects (snapshot : Snapshot) : List String :=
  addNames [] (snapshot.facts.flatMap Fact.args)

/-- What is there after a fact was added. -/
theorem mem_add_iff {snapshot : Snapshot} {fact added : Fact} :
    fact ∈ (snapshot.add added).facts ↔ fact = added ∨ fact ∈ snapshot.facts := by
  rw [add]
  split
  · next hOld =>
      rw [holds, List.contains_iff_mem] at hOld
      exact ⟨Or.inr, fun hMem => hMem.elim (fun hSame => hSame ▸ hOld) id⟩
  · rw [List.mem_append, List.mem_singleton, or_comm]

/-- Adding a fact repeats none. -/
theorem nodup_add {snapshot : Snapshot} (hNodup : snapshot.facts.Nodup) (fact : Fact) :
    (snapshot.add fact).facts.Nodup := by
  rw [add]
  split
  · exact hNodup
  · next hNew =>
      rw [holds, List.contains_iff_mem] at hNew
      refine List.nodup_append.mpr ⟨hNodup, List.pairwise_singleton _ fact, fun old hOld other hOther hSame => ?_⟩
      exact hNew (List.mem_singleton.mp hOther ▸ hSame ▸ hOld)

@[simp] theorem assignments_add (snapshot : Snapshot) (fact : Fact) :
    (snapshot.add fact).assignments = snapshot.assignments := by
  unfold add
  split <;> rfl

@[simp] theorem assignments_remove (snapshot : Snapshot) (fact : Fact) :
    (snapshot.remove fact).assignments = snapshot.assignments :=
  rfl

@[simp] theorem facts_assign (snapshot : Snapshot) (assignment : Assignment) :
    (snapshot.assign assignment).facts = snapshot.facts := by
  unfold assign
  split <;> rfl

/-- Writing a value keeps the heads and their order. -/
theorem map_head_replaceFirst (assignment : Assignment) (assignments : List Assignment) :
    (replaceFirst assignment assignments).map Assignment.head = assignments.map Assignment.head := by
  induction assignments with
  | nil => rfl
  | cons old rest ih =>
      unfold replaceFirst
      split
      · next hHead => simp [hHead]
      · simp [ih]

/-- What a list holds to which names were added. -/
theorem mem_addNames {names more : List String} {name : String} :
    name ∈ addNames names more ↔ name ∈ names ∨ name ∈ more := by
  induction more generalizing names with
  | nil => simp [addNames]
  | cons head more ih =>
      rw [addNames, List.foldl_cons]
      show name ∈ addNames _ more ↔ _
      rw [ih, List.mem_cons]
      split
      · next hSeen =>
          rw [List.contains_iff_mem] at hSeen
          constructor
          · rintro (hNames | hMore)
            · exact Or.inl hNames
            · exact Or.inr (Or.inr hMore)
          · rintro (hNames | rfl | hMore)
            · exact Or.inl hNames
            · exact Or.inl hSeen
            · exact Or.inr hMore
      · rw [List.mem_append, List.mem_singleton, or_assoc]

/-- The objects are those that some fact is about. -/
theorem mem_objects {state : Snapshot} {name : String} :
    name ∈ state.objects ↔ ∃ fact ∈ state.facts, name ∈ fact.args := by
  rw [objects, mem_addNames, List.mem_flatMap]
  simp

end Snapshot
end PlanLogic
