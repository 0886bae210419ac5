import PlanLogic.Proofs.Documents.RoundTrip

/-!
# What a document states

A line of a document that is not silent states a fact or an assignment.  A document that is made of such lines
describes the facts in the order in which they are stated first, and the heads of the assignments in the order in
which they are assigned first, each with the number that it is assigned last.  Any other document is refused for the
first of its lines that states nothing.

Before it is cut into lines, a document is stripped.  That takes away silent lines and blanks at the ends of lines
only, so the lines of the whole document state the same.
-/

namespace PlanLogic

/-! ## Statements -/

/-- What one line of a document states. -/
inductive Statement where
  | fact (fact : Fact)
  | assignment (assignment : Assignment)

namespace Statement

/-- The statement of a stripped line: an assignment if it is meant as one, and a fact otherwise. -/
def ofLine (line : String) : Except FactError Statement :=
  if Assignment.isMeant line then
    (Assignment.ofText line).map .assignment
  else
    (Fact.ofText line).map .fact

/-- The facts among statements. -/
def facts (statements : List Statement) : List Fact :=
  statements.filterMap fun
    | .fact stated => some stated
    | .assignment _ => none

/-- The assignments among statements. -/
def assignments (statements : List Statement) : List Assignment :=
  statements.filterMap fun
    | .fact _ => none
    | .assignment stated => some stated

@[simp] theorem facts_concat_fact (statements : List Statement) (stated : Fact) :
    facts (statements ++ [.fact stated]) = facts statements ++ [stated] :=
  List.filterMap_append

@[simp] theorem facts_concat_assignment (statements : List Statement) (stated : Assignment) :
    facts (statements ++ [.assignment stated]) = facts statements :=
  List.filterMap_append.trans (List.append_nil _)

@[simp] theorem assignments_concat_fact (statements : List Statement) (stated : Fact) :
    assignments (statements ++ [.fact stated]) = assignments statements :=
  List.filterMap_append.trans (List.append_nil _)

@[simp] theorem assignments_concat_assignment (statements : List Statement) (stated : Assignment) :
    assignments (statements ++ [.assignment stated]) = assignments statements ++ [stated] :=
  List.filterMap_append

end Statement

theorem Fact.eraseDups_concat (facts : List Fact) (fact : Fact) :
    (facts ++ [fact]).eraseDups = if fact ∈ facts then facts.eraseDups else facts.eraseDups ++ [fact] := by
  rw [List.eraseDups_append]
  split
  · next hOld => simp [List.removeAll, hOld]
  · next hNew =>
      have hRest : [fact].removeAll facts = [fact] := by simp [List.removeAll, hNew]
      rw [hRest, List.eraseDups_cons]
      rfl

theorem Fact.nodup_eraseDups (facts : List Fact) : facts.eraseDups.Nodup := by
  induction facts using List.reverseRecOn with
  | nil => exact List.nodup_nil
  | append_singleton facts fact ih =>
      rw [eraseDups_concat]
      split
      · exact ih
      · next hNew =>
          rw [← List.concat_eq_append]
          exact ih.concat (mt List.mem_eraseDups.mp hNew)

/-- An assignment occurs in a list, and no later one is to the same head. -/
def Assignment.IsLastIn (assignment : Assignment) (assignments : List Assignment) : Prop :=
  ∃ before after, assignments = before ++ assignment :: after ∧ ∀ later ∈ after, later.head ≠ assignment.head

theorem Assignment.isLastIn_concat (assignments : List Assignment) (last : Assignment) :
    last.IsLastIn (assignments ++ [last]) :=
  ⟨assignments, [], rfl, fun _ hNone => absurd hNone List.not_mem_nil⟩

theorem Assignment.IsLastIn.concat {assignment last : Assignment} {assignments : List Assignment}
    (hLast : assignment.IsLastIn assignments) (hOther : last.head ≠ assignment.head) :
    assignment.IsLastIn (assignments ++ [last]) := by
  obtain ⟨before, after, rfl, hAfter⟩ := hLast
  refine ⟨before, after ++ [last], by simp, ?_⟩
  exact List.forall_mem_append.mpr ⟨hAfter, List.forall_mem_singleton.mpr hOther⟩

namespace Snapshot

/-! ## What statements mean -/

/-- A snapshot holds what statements say: each fact and each head in the place of its first occurrence, and each head
with the number of its last one. -/
structure Means (statements : List Statement) (state : Snapshot) : Prop where
  facts_eq : state.facts = (Statement.facts statements).eraseDups
  heads_eq : state.heads = ((Statement.assignments statements).map Assignment.head).eraseDups
  last : ∀ assignment ∈ state.assignments, assignment.IsLastIn (Statement.assignments statements)

theorem facts_add (state : Snapshot) (fact : Fact) :
    (state.add fact).facts = if fact ∈ state.facts then state.facts else state.facts ++ [fact] := by
  rw [add]
  simp only [holds_iff]
  split <;> rfl

theorem heads_assign (state : Snapshot) (assignment : Assignment) :
    (state.assign assignment).heads =
      if assignment.head ∈ state.heads then state.heads else state.heads ++ [assignment.head] := by
  rw [assign]
  simp only [assigns_iff]
  split
  · exact heads_write state assignment
  · exact List.map_append

/-- Where no head occurs twice, writing a number leaves the assignments to other heads only. -/
theorem mem_replaceFirst {assignment new : Assignment} {assignments : List Assignment}
    (hNodup : (assignments.map Assignment.head).Nodup) (hMem : assignment ∈ replaceFirst new assignments) :
    assignment = new ∨ assignment ∈ assignments ∧ new.head ≠ assignment.head := by
  induction assignments with
  | nil => exact absurd hMem List.not_mem_nil
  | cons old rest ih =>
      obtain ⟨hOld, hRest⟩ := List.nodup_cons.mp hNodup
      rw [replaceFirst] at hMem
      split at hMem
      · next hSame =>
          rcases List.mem_cons.mp hMem with rfl | hLater
          · exact .inl rfl
          · refine .inr ⟨List.mem_cons_of_mem old hLater, fun hHead => hOld ?_⟩
            rw [hSame, hHead]
            exact List.mem_map_of_mem hLater
      · next hOther =>
          rcases List.mem_cons.mp hMem with rfl | hLater
          · exact .inr ⟨List.mem_cons_self, Ne.symm hOther⟩
          · exact (ih hRest hLater).imp_right fun hKept => ⟨List.mem_cons_of_mem old hKept.1, hKept.2⟩

/-- What is assigned after one more assignment. -/
theorem mem_assignments_assign {state : Snapshot} (hNodup : state.heads.Nodup) {assignment new : Assignment}
    (hMem : assignment ∈ (state.assign new).assignments) :
    assignment = new ∨ assignment ∈ state.assignments ∧ new.head ≠ assignment.head := by
  rw [assign] at hMem
  split at hMem
  · exact mem_replaceFirst hNodup hMem
  · next hNew =>
      rw [assigns_iff] at hNew
      rcases List.mem_append.mp hMem with hOld | hHere
      · exact .inr ⟨hOld, fun hHead => hNew (hHead ▸ List.mem_map_of_mem hOld)⟩
      · exact .inl (List.mem_singleton.mp hHere)

/-- The snapshot after one more statement. -/
def tell (state : Snapshot) : Statement → Snapshot
  | .fact fact => state.add fact
  | .assignment assignment => state.assign assignment

namespace Means

variable {statements : List Statement} {state : Snapshot}

theorem nil : Means [] empty :=
  ⟨rfl, rfl, fun _ hNone => absurd hNone List.not_mem_nil⟩

/-- One more statement. -/
theorem concat (hMeans : Means statements state) (statement : Statement) :
    Means (statements ++ [statement]) (state.tell statement) := by
  cases statement with
  | fact fact =>
      refine ⟨?_, ?_, ?_⟩
      · rw [tell, facts_add, hMeans.facts_eq, Statement.facts_concat_fact, Fact.eraseDups_concat]
        simp only [List.mem_eraseDups]
      · rw [tell, heads_add, hMeans.heads_eq, Statement.assignments_concat_fact]
      · rw [tell, assignments_add, Statement.assignments_concat_fact]
        exact hMeans.last
  | assignment new =>
      refine ⟨?_, ?_, fun assignment hMem => ?_⟩
      · rw [tell, facts_assign, hMeans.facts_eq, Statement.facts_concat_assignment]
      · rw [tell, heads_assign, hMeans.heads_eq, Statement.assignments_concat_assignment, List.map_append,
          List.map_singleton, Fact.eraseDups_concat]
        simp only [List.mem_eraseDups]
      · have hNodup : state.heads.Nodup := hMeans.heads_eq ▸ Fact.nodup_eraseDups _
        rw [Statement.assignments_concat_assignment]
        rcases mem_assignments_assign hNodup hMem with rfl | ⟨hOld, hOther⟩
        · exact Assignment.isLastIn_concat _ assignment
        · exact (hMeans.last assignment hOld).concat hOther

/-- One statement after the other. -/
theorem foldl_tell (statements : List Statement) : Means statements (statements.foldl tell empty) := by
  -- By the last statement: only what comes last can change a number that an earlier statement gave.
  induction statements using List.reverseRecOn with
  | nil => exact nil
  | append_singleton statements statement ih =>
      rw [List.foldl_append]
      exact ih.concat statement

end Means

/-! ## The lines that state something -/

/-- The lines that are not silent, stripped. -/
def spokenLines (lines : List (List Char)) : List String :=
  ((lines.map Text.strip).filter fun line => !isSilent line).map String.ofList

theorem spokenLines_cons (line : List Char) (lines : List (List Char)) :
    spokenLines (line :: lines) =
      if isSilent (Text.strip line) then spokenLines lines
      else String.ofList (Text.strip line) :: spokenLines lines := by
  rw [spokenLines, List.map_cons, List.filter_cons]
  cases isSilent (Text.strip line) <;> rfl

theorem spokenLines_append (first second : List (List Char)) :
    spokenLines (first ++ second) = spokenLines first ++ spokenLines second := by
  simp only [spokenLines, List.map_append, List.filter_append]

/-- Stripping a document changes no line that is spoken. -/
theorem spokenLines_lines_strip (cs : List Char) :
    spokenLines (Text.lines (Text.strip cs)) = spokenLines (Text.lines cs) := by
  obtain ⟨count, hLines⟩ := Text.map_strip_lines cs
  have hSilent (number : Nat) : (List.replicate number []).filter (fun line => !isSilent line) = [] :=
    List.filter_replicate_of_neg Bool.false_ne_true
  rw [spokenLines, spokenLines, hLines, List.filter_append, List.filter_append, hSilent, hSilent, List.nil_append,
    List.append_nil]

/-! ## Documents -/

/-- Reading a line is telling what it states. -/
theorem readLine_eq (state : Snapshot) (line : String) :
    state.readLine line = (Statement.ofLine line).map state.tell := by
  rw [readLine, Statement.ofLine]
  split
  · cases Assignment.ofText line <;> rfl
  · cases Fact.ofText line <;> rfl

/-- Lines that are accepted tell what they state, one after the other. -/
theorem statements_of_readLines {state final : Snapshot} {number : Nat} {lines : List (List Char)}
    (hLines : state.readLines number lines = .ok final) :
    ∃ statements : List Statement, (spokenLines lines).map Statement.ofLine = statements.map .ok ∧
      final = statements.foldl tell state := by
  induction lines generalizing state number with
  | nil => exact ⟨[], rfl, (Except.ok.inj hLines).symm⟩
  | cons line lines ih =>
      rw [readLines] at hLines
      rw [spokenLines_cons]
      split at hLines
      · next hSilent =>
          rw [if_pos hSilent]
          exact ih hLines
      · next hSpoken =>
          rw [if_neg hSpoken]
          cases hStatement : Statement.ofLine (String.ofList (Text.strip line)) with
          | error cause =>
              rw [readLine_eq, hStatement] at hLines
              exact absurd hLines (by simp [Except.map])
          | ok statement =>
              rw [readLine_eq, hStatement] at hLines
              obtain ⟨statements, hStatements, hFinal⟩ := ih hLines
              refine ⟨statement :: statements, ?_, hFinal⟩
              rw [List.map_cons, List.map_cons, hStatement, hStatements]

/-- An error is about the first line that is not silent and states nothing, where lines are counted from `number`. -/
def IsFirstRefused (error : DocumentError) (number : Nat) (lines : List (List Char)) : Prop :=
  ∃ before line after, lines = before ++ line :: after ∧ error.line = number + before.length ∧
    error.text = String.ofList (Text.strip line) ∧ isSilent (Text.strip line) = false ∧
    (∀ spoken ∈ spokenLines before, ∃ statement, Statement.ofLine spoken = .ok statement) ∧
    Statement.ofLine error.text = .error error.cause

theorem IsFirstRefused.cons {error : DocumentError} {number : Nat} {lines : List (List Char)}
    (hLater : IsFirstRefused error (number + 1) lines) {first : List Char}
    (hFirst : ∀ spoken ∈ spokenLines [first], ∃ statement, Statement.ofLine spoken = .ok statement) :
    IsFirstRefused error number (first :: lines) := by
  obtain ⟨before, line, after, rfl, hNumber, hText, hSpoken, hBefore, hCause⟩ := hLater
  refine ⟨first :: before, line, after, rfl, ?_, hText, hSpoken, ?_, hCause⟩
  · rw [hNumber, List.length_cons]
    omega
  · rw [← List.singleton_append, spokenLines_append]
    exact List.forall_mem_append.mpr ⟨hFirst, hBefore⟩

/-- Lines are refused for the first one that is not silent and states nothing. -/
theorem isFirstRefused_of_readLines {state : Snapshot} {number : Nat} {lines : List (List Char)}
    {error : DocumentError} (hLines : state.readLines number lines = .error error) :
    IsFirstRefused error number lines := by
  induction lines generalizing state number with
  | nil => exact absurd hLines (by simp [readLines])
  | cons first lines ih =>
      rw [readLines] at hLines
      split at hLines
      · next hSilent =>
          refine (ih hLines).cons ?_
          rw [spokenLines_cons, if_pos hSilent]
          exact fun _ hNone => absurd hNone List.not_mem_nil
      · next hSpoken =>
          cases hStatement : Statement.ofLine (String.ofList (Text.strip first)) with
          | error cause =>
              rw [readLine_eq, hStatement] at hLines
              obtain rfl := Except.error.inj hLines
              refine ⟨[], first, lines, rfl, rfl, rfl, Bool.eq_false_iff.mpr hSpoken, ?_, hStatement⟩
              exact fun _ hNone => absurd hNone List.not_mem_nil
          | ok statement =>
              rw [readLine_eq, hStatement] at hLines
              refine (ih hLines).cons ?_
              rw [spokenLines_cons, if_neg hSpoken]
              exact List.forall_mem_singleton.mpr ⟨statement, hStatement⟩

/-- A document that is accepted describes what its lines state. -/
theorem statements_of_ofText {text : String} {state : Snapshot} (hText : ofText text = .ok state) :
    ∃ statements : List Statement,
      (spokenLines (Text.lines text.toList)).map Statement.ofLine = statements.map .ok ∧ Means statements state := by
  obtain ⟨statements, hStatements, rfl⟩ := statements_of_readLines hText
  rw [spokenLines_lines_strip] at hStatements
  exact ⟨statements, hStatements, .foldl_tell statements⟩

/-- A document is refused for the first line that states nothing. -/
theorem first_of_ofText {text : String} {error : DocumentError} (hText : ofText text = .error error) :
    ∃ before after, spokenLines (Text.lines text.toList) = before ++ error.text :: after ∧
      (∀ line ∈ before, ∃ statement, Statement.ofLine line = .ok statement) ∧
        Statement.ofLine error.text = .error error.cause := by
  obtain ⟨before, line, after, hLines, -, hError, hSpoken, hBefore, hCause⟩ := isFirstRefused_of_readLines hText
  refine ⟨spokenLines before, spokenLines after, ?_, hBefore, hCause⟩
  rw [← spokenLines_lines_strip, hLines, spokenLines_append, spokenLines_cons, if_neg (Bool.eq_false_iff.mp hSpoken),
    hError]

/-- A document is accepted exactly if each of its lines that is not silent states a fact or an assignment.  Then it
describes the facts in the order in which they are stated first, and the heads in the order in which they are assigned
first, each with its last number.  Otherwise it is refused for the first line that states nothing, with the reason for
which that line was refused and its stripped text. -/
theorem ofText_means (text : String) :
    let spoken := spokenLines (Text.lines text.toList)
    ((∃ state, ofText text = .ok state) ↔ ∀ line ∈ spoken, ∃ statement, Statement.ofLine line = .ok statement) ∧
      (∀ state, ofText text = .ok state → ∃ statements : List Statement,
        spoken.map Statement.ofLine = statements.map .ok ∧ Means statements state) ∧
      ∀ error, ofText text = .error error → ∃ before after, spoken = before ++ error.text :: after ∧
        (∀ line ∈ before, ∃ statement, Statement.ofLine line = .ok statement) ∧
          Statement.ofLine error.text = .error error.cause := by
  intro spoken
  refine ⟨⟨?_, fun hAll => ?_⟩, fun _ => statements_of_ofText, fun _ => first_of_ofText⟩
  · rintro ⟨state, hText⟩ line hMem
    obtain ⟨statements, hStatements, -⟩ := statements_of_ofText hText
    have hLine : Statement.ofLine line ∈ statements.map .ok := hStatements ▸ List.mem_map_of_mem hMem
    obtain ⟨statement, -, hStatement⟩ := List.mem_map.mp hLine
    exact ⟨statement, hStatement.symm⟩
  · cases hText : ofText text with
    | ok state => exact ⟨state, rfl⟩
    | error error =>
        obtain ⟨before, after, hSplit, -, hCause⟩ := first_of_ofText hText
        obtain ⟨statement, hStatement⟩ := hAll error.text (by simp [spoken, hSplit])
        exact absurd (hStatement.symm.trans hCause) (by simp)

/-- A head keeps its place but not its number, and a fact that is stated again is not repeated. -/
example : ofText "\n(= (f) 1)\n ; a remark\n(p a)\n(= (g) 2)\n\t(p  a)\n(= (f) 3) \n" =
    .ok ⟨[⟨"p", ["a"]⟩], [⟨⟨"f", []⟩, 3⟩, ⟨⟨"g", []⟩, 2⟩]⟩ := by
  decide +kernel

end Snapshot
end PlanLogic
