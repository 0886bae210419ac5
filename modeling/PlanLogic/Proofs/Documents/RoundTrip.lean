import PlanLogic.Proofs.Facts.Assignments
import PlanLogic.Snapshot.Document

/-!
# Documents read back

A snapshot is sound if it holds no fact and no head twice, and a document can state all of them.  What a
document describes is sound, each change of a sound snapshot gives a sound one, and the document of a sound
snapshot describes that snapshot: the same facts and values in the same order.
-/

namespace PlanLogic

deriving instance DecidableEq for Assignment, Snapshot

namespace Snapshot

/-- The heads that have a number, in order. -/
def heads (state : Snapshot) : List Fact :=
  state.assignments.map Assignment.head

@[simp] theorem heads_add (state : Snapshot) (fact : Fact) : (state.add fact).heads = state.heads := by
  rw [heads, assignments_add, heads]

@[simp] theorem heads_remove (state : Snapshot) (fact : Fact) : (state.remove fact).heads = state.heads :=
  rfl

@[simp] theorem heads_write (state : Snapshot) (assignment : Assignment) :
    (state.write assignment).heads = state.heads :=
  map_head_replaceFirst assignment state.assignments

theorem assigns_iff {state : Snapshot} {head : Fact} : state.assigns head = true ↔ head ∈ state.heads := by
  rw [assigns, List.any_eq_true, heads, List.mem_map]
  simp only [beq_iff_eq]

theorem holds_iff {state : Snapshot} {fact : Fact} : state.holds fact = true ↔ fact ∈ state.facts := by
  rw [holds, List.contains_iff_mem]

/-! ## Adding what is new -/

/-- Facts that are new are added at the end. -/
theorem foldl_add {facts : List Fact} {state : Snapshot} (hNew : (state.facts ++ facts).Nodup) :
    facts.foldl add state = { state with facts := state.facts ++ facts } := by
  induction facts generalizing state with
  | nil => rw [List.foldl_nil, List.append_nil]
  | cons fact facts ih =>
      have hFact : state.holds fact = false := by
        rw [Bool.eq_false_iff, Ne, holds_iff]
        intro hOld
        exact (List.nodup_append.mp hNew).2.2 fact hOld fact List.mem_cons_self rfl
      rw [List.foldl_cons, add, hFact, if_neg Bool.false_ne_true, ih (by simpa using hNew), List.append_assoc,
        List.singleton_append]

/-- Assignments to heads that are new are added at the end. -/
theorem foldl_assign {assignments : List Assignment} {state : Snapshot}
    (hNew : (state.heads ++ assignments.map Assignment.head).Nodup) :
    assignments.foldl assign state = { state with assignments := state.assignments ++ assignments } := by
  induction assignments generalizing state with
  | nil => rw [List.foldl_nil, List.append_nil]
  | cons assignment assignments ih =>
      have hHead : state.assigns assignment.head = false := by
        rw [Bool.eq_false_iff, Ne, assigns_iff]
        intro hOld
        exact (List.nodup_append.mp hNew).2.2 _ hOld _ List.mem_cons_self rfl
      rw [List.foldl_cons, assign, hHead, if_neg Bool.false_ne_true, ih (by simpa [heads] using hNew),
        List.append_assoc, List.singleton_append]

/-! ## Sound snapshots -/

/-- A snapshot without repetitions whose facts and heads a document can state. -/
structure Sound (state : Snapshot) : Prop where
  facts_nodup : state.facts.Nodup
  heads_nodup : state.heads.Nodup
  facts_writable : ∀ fact ∈ state.facts, fact.Writable
  heads_writable : ∀ head ∈ state.heads, head.Writable

namespace Sound

variable {state : Snapshot} {fact : Fact} {assignment : Assignment}

theorem empty : Snapshot.empty.Sound :=
  ⟨List.nodup_nil, List.nodup_nil, fun _ hMem => absurd hMem List.not_mem_nil,
    fun _ hMem => absurd hMem List.not_mem_nil⟩

theorem add (hSound : state.Sound) (hFact : fact.Writable) : (state.add fact).Sound := by
  refine ⟨nodup_add hSound.facts_nodup fact, ?_, fun other hOther => ?_, ?_⟩
  · rw [heads_add]
    exact hSound.heads_nodup
  · rcases mem_add_iff.mp hOther with rfl | hOld
    · exact hFact
    · exact hSound.facts_writable other hOld
  · rw [heads_add]
    exact hSound.heads_writable

theorem remove (hSound : state.Sound) (fact : Fact) : (state.remove fact).Sound :=
  ⟨hSound.facts_nodup.erase fact, hSound.heads_nodup,
    fun other hMem => hSound.facts_writable other (List.mem_of_mem_erase hMem), hSound.heads_writable⟩

theorem write (hSound : state.Sound) (assignment : Assignment) : (state.write assignment).Sound := by
  refine ⟨hSound.facts_nodup, ?_, hSound.facts_writable, ?_⟩
  · rw [heads_write]
    exact hSound.heads_nodup
  · rw [heads_write]
    exact hSound.heads_writable

theorem assign (hSound : state.Sound) (hHead : assignment.head.Writable) : (state.assign assignment).Sound := by
  unfold Snapshot.assign
  split
  · exact hSound.write assignment
  · next hNew =>
      rw [assigns_iff] at hNew
      have hHeads : heads { state with assignments := state.assignments ++ [assignment] } =
          state.heads ++ [assignment.head] := by
        rw [heads, List.map_append, List.map_singleton, heads]
      refine ⟨hSound.facts_nodup, ?_, hSound.facts_writable, ?_⟩
      · rw [hHeads, ← List.concat_eq_append]
        exact hSound.heads_nodup.concat hNew
      · rw [hHeads]
        exact List.forall_mem_append.mpr ⟨hSound.heads_writable, List.forall_mem_singleton.mpr hHead⟩

end Sound

/-! ## What a document describes -/

theorem Sound.of_readLine {state next : Snapshot} (hSound : state.Sound) {line : String}
    (hLine : state.readLine line = .ok next) : next.Sound := by
  rw [readLine] at hLine
  split at hLine
  · cases hText : Assignment.ofText line with
    | error cause => simp [hText, Except.map] at hLine
    | ok assignment =>
        rw [hText] at hLine
        obtain rfl := Except.ok.inj hLine
        exact hSound.assign (Assignment.writable_of_ofText hText)
  · cases hText : Fact.ofText line with
    | error cause => simp [hText, Except.map] at hLine
    | ok fact =>
        rw [hText] at hLine
        obtain rfl := Except.ok.inj hLine
        exact hSound.add (Fact.writable_of_ofText hText)

theorem Sound.of_readLines {state final : Snapshot} (hSound : state.Sound) {line : Nat}
    {lines : List (List Char)} (hLines : state.readLines line lines = .ok final) : final.Sound := by
  induction lines generalizing state line with
  | nil =>
      obtain rfl := Except.ok.inj hLines
      exact hSound
  | cons cs rest ih =>
      rw [readLines] at hLines
      split at hLines
      · exact ih hSound hLines
      split at hLines
      · next next hNext => exact ih (hSound.of_readLine hNext) hLines
      · exact absurd hLines (by simp)

/-- What a document describes is sound. -/
theorem sound_of_ofText {text : String} {state : Snapshot} (hText : ofText text = .ok state) : state.Sound :=
  Sound.empty.of_readLines hText

/-! ## Reading the lines of a document -/

theorem readLines_append (state : Snapshot) (line : Nat) (lines rest : List (List Char)) :
    state.readLines line (lines ++ rest) =
      (state.readLines line lines).bind fun middle => middle.readLines (line + lines.length) rest := by
  induction lines generalizing state line with
  | nil => rfl
  | cons cs lines ih =>
      have hCount : line + (cs :: lines).length = line + 1 + lines.length := by
        rw [List.length_cons]
        omega
      rw [List.cons_append, readLines, readLines, hCount]
      split
      · exact ih state (line + 1)
      split
      · next next _ => exact ih next (line + 1)
      · rfl

/-- Reading lines leads from one snapshot to another, wherever the lines stand. -/
def Reads (state : Snapshot) (lines : List (List Char)) (final : Snapshot) : Prop :=
  ∀ line, state.readLines line lines = .ok final

namespace Reads

variable {state middle final : Snapshot} {lines rest : List (List Char)}

theorem nil (state : Snapshot) : Reads state [] state :=
  fun _ => rfl

theorem append (hLines : Reads state lines middle) (hRest : Reads middle rest final) :
    Reads state (lines ++ rest) final := by
  intro line
  rw [readLines_append, hLines line]
  exact hRest _

/-- A line that says nothing. -/
theorem silent {line : List Char} (hSilent : isSilent (Text.strip line) = true) (state : Snapshot) :
    Reads state [line] state := by
  intro number
  rw [readLines, if_pos hSilent]
  rfl

/-- A line in parentheses. -/
theorem enclosed {line : String} {inside : List Char} (hLine : line.toList = '(' :: (inside ++ [')']))
    (hNext : state.readLine line = .ok final) : Reads state [line.toList] final := by
  intro number
  rw [readLines, hLine, Text.strip_enclosed, ← hLine]
  rw [String.ofList_toList, hNext, hLine, if_neg (by simp [isSilent])]
  rfl

/-- The facts of a section are added in order. -/
theorem facts {facts : List Fact} (hFacts : ∀ fact ∈ facts, fact.Writable) (state : Snapshot) :
    Reads state ((facts.map Fact.key).map String.toList) (facts.foldl add state) := by
  induction facts generalizing state with
  | nil => exact nil state
  | cons fact facts ih =>
      have hFact := hFacts fact List.mem_cons_self
      have hNext : state.readLine fact.key = .ok (state.add fact) := by
        rw [readLine, Assignment.isMeant_of_fact hFact.ofText_key, if_neg Bool.false_ne_true, hFact.ofText_key, Except.map]
      exact (enclosed fact.toList_key hNext).append
        (ih (fun other hMem => hFacts other (List.mem_cons_of_mem fact hMem)) (state.add fact))

/-- The assignments of a section are made in order. -/
theorem assignments {assignments : List Assignment} (hHeads : ∀ assignment ∈ assignments, assignment.head.Writable)
    (state : Snapshot) :
    Reads state ((assignments.map Assignment.text).map String.toList) (assignments.foldl assign state) := by
  induction assignments generalizing state with
  | nil => exact nil state
  | cons assignment assignments ih =>
      have hHead := hHeads assignment List.mem_cons_self
      have hNext : state.readLine assignment.text = .ok (state.assign assignment) := by
        rw [readLine, Assignment.isMeant_text, if_pos rfl, Assignment.ofText_text hHead, Except.map]
      exact (enclosed assignment.toList_text hNext).append
        (ih (fun other hMem => hHeads other (List.mem_cons_of_mem assignment hMem)) (state.assign assignment))

/-- A section says what its lines say. -/
theorem sectionLines (heading : String) (hHeading : isSilent (Text.strip heading.toList) = true)
    {lines : List String} (hLines : Reads state (lines.map String.toList) final) :
    Reads state ((Snapshot.sectionLines heading lines).map String.toList) final := by
  rw [Snapshot.sectionLines]
  split
  · next hNone =>
      rw [List.isEmpty_iff.mp hNone] at hLines
      exact hLines
  · have hWhole := ((silent hHeading state).append hLines).append (silent rfl final : Reads final [[]] final)
    simpa using hWhole

/-- An empty line at the end says nothing. -/
theorem of_concat_nil (hLines : Reads state (lines ++ [[]]) final) : Reads state lines final := by
  intro line
  have hWhole := hLines line
  rw [readLines_append] at hWhole
  cases hRead : state.readLines line lines with
  | error cause =>
      rw [hRead] at hWhole
      exact absurd hWhole (by simp [Except.bind])
  | ok found =>
      rw [hRead] at hWhole
      exact hWhole

end Reads

/-! ## The document of a snapshot -/

/-- The lines of the document of a snapshot. -/
def documentLines (state : Snapshot) : List String :=
  sectionLines "# Predicates" (state.facts.map Fact.key) ++
    sectionLines "# Functions" (state.assignments.map Assignment.text)

/-- A snapshot without repetitions is rebuilt from its facts and assignments. -/
theorem Sound.foldl_assign_foldl_add {state : Snapshot} (hSound : state.Sound) :
    state.assignments.foldl Snapshot.assign (state.facts.foldl Snapshot.add Snapshot.empty) = state := by
  have hFacts : state.facts.foldl Snapshot.add Snapshot.empty = ⟨state.facts, []⟩ :=
    foldl_add hSound.facts_nodup
  have hAssignments : state.assignments.foldl Snapshot.assign ⟨state.facts, []⟩ = state :=
    foldl_assign hSound.heads_nodup
  rw [hFacts, hAssignments]

theorem Sound.reads_documentLines {state : Snapshot} (hSound : state.Sound) :
    Reads Snapshot.empty (state.documentLines.map String.toList) state := by
  have hFacts := Reads.sectionLines "# Predicates" (by decide)
    (Reads.facts hSound.facts_writable Snapshot.empty)
  have hAssignments := Reads.sectionLines "# Functions" (by decide)
    (Reads.assignments (fun assignment hMem => hSound.heads_writable _ (List.mem_map_of_mem hMem))
      (state.facts.foldl Snapshot.add Snapshot.empty))
  rw [hSound.foldl_assign_foldl_add] at hAssignments
  rw [documentLines, List.map_append]
  exact hFacts.append hAssignments

theorem sectionLines_concat (heading : String) (lines : List String) (last : String) :
    sectionLines heading (lines ++ [last]) = heading :: lines ++ [last] ++ [""] := by
  rw [sectionLines, if_neg (by simp)]
  rfl

/-- Unless it is empty, a document starts with a heading, and its last line but one ends in a parenthesis. -/
theorem documentLines_shape {state : Snapshot} (hSome : state.documentLines ≠ []) :
    ∃ first more last, state.documentLines = first :: more ++ [last] ++ [""] ∧
      (first = "# Predicates" ∨ first = "# Functions") ∧ ∃ inside, last.toList = '(' :: (inside ++ [')']) := by
  obtain ⟨facts, assignments⟩ := state
  obtain rfl | ⟨assignments, last, rfl⟩ := List.eq_nil_or_concat' assignments
  · obtain rfl | ⟨facts, last, rfl⟩ := List.eq_nil_or_concat' facts
    · exact absurd rfl hSome
    · refine ⟨"# Predicates", facts.map Fact.key, last.key, ?_, .inl rfl, last.inner, last.toList_key⟩
      rw [documentLines, List.map_append, List.map_singleton, sectionLines_concat]
      exact List.append_nil _
  · have hLast : ∃ inside, last.text.toList = '(' :: (inside ++ [')']) := ⟨_, last.toList_text⟩
    rw [documentLines, List.map_append, List.map_singleton, sectionLines_concat, sectionLines]
    split
    · exact ⟨_, _, _, rfl, .inr rfl, hLast⟩
    · exact ⟨"# Predicates", facts.map Fact.key ++ "" :: "# Functions" :: assignments.map Assignment.text,
        last.text, by simp, .inl rfl, hLast⟩

theorem lineFeed_notMem_sectionLines {heading : String} {lines : List String} (hHeading : '\n' ∉ heading.toList)
    (hLines : ∀ line ∈ lines, '\n' ∉ line.toList) :
    ∀ line ∈ Snapshot.sectionLines heading lines, '\n' ∉ line.toList := by
  intro line hMem
  rw [Snapshot.sectionLines] at hMem
  split at hMem
  · exact absurd hMem List.not_mem_nil
  · simp only [List.cons_append, List.mem_cons, List.mem_append, List.not_mem_nil, or_false] at hMem
    rcases hMem with rfl | hMem | rfl
    · exact hHeading
    · exact hLines line hMem
    · exact List.not_mem_nil

theorem Sound.lineFeed_notMem {state : Snapshot} (hSound : state.Sound) :
    ∀ line ∈ state.documentLines, '\n' ∉ line.toList := by
  intro line hMem
  rcases List.mem_append.mp hMem with hFacts | hAssignments
  · refine lineFeed_notMem_sectionLines (by decide) (fun line hLine => ?_) line hFacts
    obtain ⟨fact, hFact, rfl⟩ := List.mem_map.mp hLine
    exact (hSound.facts_writable fact hFact).spelled.lineFeed_notMem_key
  · refine lineFeed_notMem_sectionLines (by decide) (fun line hLine => ?_) line hAssignments
    obtain ⟨assignment, hAssignment, rfl⟩ := List.mem_map.mp hLine
    exact Assignment.lineFeed_notMem_text (hSound.heads_writable _ (List.mem_map_of_mem hAssignment)).spelled

/-- The document of a sound snapshot describes the snapshot. -/
theorem Sound.ofText_text {state : Snapshot} (hSound : state.Sound) : ofText state.text = .ok state := by
  have hReads := hSound.reads_documentLines
  have hText : state.text.toList = ['\n'].intercalate (state.documentLines.map String.toList) :=
    String.toList_intercalate
  by_cases hSome : state.documentLines = []
  · rw [hSome] at hReads
    obtain rfl := Except.ok.inj (hReads 1)
    rfl
  · obtain ⟨first, more, last, hLines, hFirst, inside, hLast⟩ := documentLines_shape hSome
    have hNone : ∀ line ∈ (first :: more ++ [last]).map String.toList, '\n' ∉ line := by
      intro line hMem
      obtain ⟨text, hIn, rfl⟩ := List.mem_map.mp hMem
      exact hSound.lineFeed_notMem text (hLines ▸ List.mem_append_left [""] hIn)
    -- The last line is empty, so each of the others ends in a line feed, and stripping takes away the last one.
    rw [hLines, List.map_append] at hReads hText
    rw [List.map_singleton, String.toList_empty, Text.intercalate_concat_nil] at hText
    obtain ⟨heading, hHeading⟩ : ∃ heading, first.toList = '#' :: heading := by
      rcases hFirst with rfl | rfl
      · exact ⟨_, rfl⟩
      · exact ⟨_, rfl⟩
    have hShape : ((first :: more ++ [last]).map String.toList).flatMap (· ++ ['\n']) =
        '#' :: (heading ++ '\n' :: (more.map String.toList).flatMap (· ++ ['\n']) ++ '(' :: inside ++ [')']) ++
          ['\n'] := by
      simp [hHeading, hLast]
    rw [ofText, hText, Text.lines_strip_flatMap hNone hShape (by decide) (by decide)]
    exact hReads.of_concat_nil 1

end Snapshot
end PlanLogic
