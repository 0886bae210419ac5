import PlanLogic.Proofs.Documents.Statements

/-!
# Documents of one line

An assignment can be read by itself or as the only line of a document.  The line is looked at twice: first whether it
is meant as an assignment, and then what it denotes.  The first look wants a blank after the equality sign, and the
second one does not.  So a document of one line describes an assignment exactly if the line denotes it and has that
blank; a line without the blank denotes an assignment and is refused as a document.
-/

namespace PlanLogic

namespace Assignment

/-- The head of an assignment follows the equality sign without a blank. -/
def IsTight (text : String) : Prop :=
  ∃ gap rest, (∀ c ∈ gap, Text.isBlank c = true) ∧ Text.strip text.toList = '(' :: (gap ++ '=' :: '(' :: rest)

/-- What follows the equality sign of an assignment. -/
theorem afterEquals?_eq_some_iff {cs rest : List Char} :
    afterEquals? cs = some rest ↔ ∃ gap, (∀ c ∈ gap, Text.isBlank c = true) ∧ cs = '(' :: (gap ++ '=' :: rest) := by
  constructor
  · intro hAfter
    unfold afterEquals? at hAfter
    split at hAfter
    · next cs =>
        split at hAfter
        · next found hFound =>
            obtain rfl := Option.some.inj hAfter
            refine ⟨cs.takeWhile Text.isBlank, fun c hMem => List.mem_takeWhile_imp hMem, ?_⟩
            rw [← hFound, Text.stripStart, List.takeWhile_append_dropWhile]
        · exact absurd hAfter (Option.some_ne_none _).symm
    · exact absurd hAfter (Option.some_ne_none _).symm
  · rintro ⟨gap, hGap, rfl⟩
    rw [afterEquals?, Text.stripStart, List.dropWhile_append_of_pos hGap, List.dropWhile_cons_of_neg (by decide)]
    rfl

theorem isTight_iff {text : String} :
    IsTight text ↔ ∃ rest, afterEquals? (Text.strip text.toList) = some ('(' :: rest) := by
  simp only [afterEquals?_eq_some_iff, IsTight]
  exact exists_comm

/-- A text without the blank is not meant as an assignment. -/
theorem isMeant_of_isTight {text : String} (hTight : IsTight text) : isMeant text = false := by
  obtain ⟨rest, hAfter⟩ := isTight_iff.mp hTight
  rw [isMeant, hAfter]
  rfl

/-- The blanks around a text do not matter. -/
theorem isMeant_strip (text : String) : isMeant (String.ofList (Text.strip text.toList)) = isMeant text := by
  rw [isMeant, isMeant, String.toList_ofList, Text.strip_strip]

theorem ofText_strip_eq_ok_iff {text : String} {assignment : Assignment} :
    ofText (String.ofList (Text.strip text.toList)) = .ok assignment ↔ ofText text = .ok assignment := by
  have hParts : parts? (Text.strip text.toList) = parts? text.toList := by rw [parts?, parts?, Text.strip_strip]
  rw [ofText, ofText, String.toList_ofList, hParts]
  cases parts? text.toList with
  | none => simp
  | some => rfl

/-- A text that denotes an assignment is an opening parenthesis, an equality sign, and a head with what follows it;
only blanks are between them. -/
theorem exists_head_of_ofText {text : String} {assignment : Assignment} (hText : ofText text = .ok assignment) :
    ∃ after rest, afterEquals? (Text.strip text.toList) = some after ∧ Text.stripStart after = '(' :: rest := by
  rw [ofText] at hText
  cases hParts : parts? text.toList with
  | none =>
      rw [hParts] at hText
      exact absurd hText (by simp)
  | some found =>
      rw [parts?, Option.bind_eq_some_iff] at hParts
      obtain ⟨after, hAfter, hHead⟩ := hParts
      rw [Option.bind_eq_some_iff] at hHead
      obtain ⟨head, hHead, -⟩ := hHead
      unfold takeHead? at hHead
      split at hHead
      · next hStart => exact ⟨after, _, hAfter, hStart⟩
      · exact absurd hHead (Option.some_ne_none _).symm

/-- An assignment is meant as one unless its head follows the equality sign without a blank. -/
theorem isMeant_iff_of_ofText {text : String} {assignment : Assignment} (hText : ofText text = .ok assignment) :
    isMeant text = true ↔ ¬ IsTight text := by
  obtain ⟨after, rest, hAfter, hStart⟩ := exists_head_of_ofText hText
  constructor
  · intro hMeant hTight
    rw [isMeant_of_isTight hTight] at hMeant
    exact Bool.false_ne_true hMeant
  · intro hLoose
    cases after with
    | nil => exact absurd hStart (List.cons_ne_nil _ _).symm
    | cons c cs =>
        rw [isMeant, hAfter]
        cases hBlank : Text.isBlank c with
        | true => exact hBlank
        | false =>
            rw [Text.stripStart_cons hBlank] at hStart
            exact absurd (isTight_iff.mpr ⟨rest, hStart ▸ hAfter⟩) hLoose

end Assignment

/-- A text with an opening parenthesis inside denotes no fact. -/
theorem Fact.ofText_eq_notFact {text : String} {cs : List Char} (hText : Text.strip text.toList = '(' :: cs)
    (hInside : '(' ∈ cs) : Fact.ofText text = .error (.notFact text) := by
  refine ofText_of_no_symbols fun fact hSymbols => ?_
  obtain ⟨inner, hShape, hNone, -⟩ := symbols?_eq_some_iff.mp hSymbols
  obtain rfl := (List.cons.inj (hText.symm.trans hShape)).2
  have hInner : '(' ∈ inner := (List.mem_append.mp hInside).resolve_right (by decide)
  exact absurd (hNone '(' hInner) (by decide)

namespace Snapshot

/-- A document of one line. -/
theorem ofText_of_lineFeed_notMem {text : String} (hLine : '\n' ∉ text.toList) :
    ofText text = empty.readLines 1 [Text.strip text.toList] := by
  have hStripped : '\n' ∉ Text.strip text.toList := fun hMem => hLine (Text.strip_subset _ hMem)
  rw [ofText, Text.lines, Text.splitAt_of_notMem hStripped]

/-- A document of one line that is not silent. -/
theorem ofText_of_spoken {text : String} (hLine : '\n' ∉ text.toList)
    (hSpoken : isSilent (Text.strip text.toList) = false) :
    let stripped := String.ofList (Text.strip text.toList)
    ofText text = (empty.readLine stripped).mapError fun cause => ⟨cause, 1, stripped⟩ := by
  intro stripped
  rw [ofText_of_lineFeed_notMem hLine, readLines, Text.strip_strip, hSpoken, if_neg Bool.false_ne_true]
  cases empty.readLine (String.ofList (Text.strip text.toList)) with
  | error cause => rfl
  | ok next => rfl

/-- The snapshot of a single assignment is what a line describes that is meant as the assignment and denotes it. -/
theorem readLine_eq_assignment_iff {line : String} {assignment : Assignment} :
    empty.readLine line = .ok ⟨[], [assignment]⟩ ↔
      Assignment.isMeant line = true ∧ Assignment.ofText line = .ok assignment := by
  rw [readLine]
  split
  · next hMeant =>
      cases hText : Assignment.ofText line with
      | error cause => simp [Except.map]
      | ok found =>
          have hAssign : empty.assign found = ⟨[], [found]⟩ := rfl
          simp [Except.map, hAssign, hMeant]
  · next hOther =>
      cases hText : Fact.ofText line with
      | error cause => simp [Except.map, hOther]
      | ok found =>
          have hAdd : empty.add found = ⟨[found], []⟩ := rfl
          simp [Except.map, hAdd, hOther]

/-- A line with an opening parenthesis is not silent. -/
theorem isSilent_of_afterEquals? {cs rest : List Char} (hAfter : Assignment.afterEquals? cs = some rest) :
    isSilent cs = false := by
  obtain ⟨gap, -, rfl⟩ := Assignment.afterEquals?_eq_some_iff.mp hAfter
  rfl

/-- A document of one line describes a single assignment if the line is meant as the assignment and denotes it. -/
theorem ofText_singleton_iff {text : String} (hLine : '\n' ∉ text.toList) {assignment : Assignment} :
    ofText text = .ok ⟨[], [assignment]⟩ ↔
      Assignment.isMeant text = true ∧ Assignment.ofText text = .ok assignment := by
  cases hSpoken : isSilent (Text.strip text.toList) with
  | true =>
      have hEmpty : ofText text = .ok empty := by
        rw [ofText_of_lineFeed_notMem hLine, readLines, Text.strip_strip, if_pos hSpoken]
        rfl
      rw [hEmpty]
      constructor
      · intro hSame
        exact absurd hSame (by simp [empty])
      · rintro ⟨-, hText⟩
        obtain ⟨after, -, hAfter, -⟩ := Assignment.exists_head_of_ofText hText
        rw [isSilent_of_afterEquals? hAfter] at hSpoken
        exact absurd hSpoken Bool.false_ne_true
  | false =>
      have hRead : empty.readLine (String.ofList (Text.strip text.toList)) = .ok ⟨[], [assignment]⟩ ↔ _ :=
        readLine_eq_assignment_iff
      rw [Assignment.isMeant_strip, Assignment.ofText_strip_eq_ok_iff] at hRead
      rw [ofText_of_spoken hLine hSpoken, ← hRead]
      cases empty.readLine (String.ofList (Text.strip text.toList)) <;> simp [Except.mapError]

/-- A document of one line describes a single fact if the line denotes the fact. -/
theorem ofText_of_fact {text : String} (hLine : '\n' ∉ text.toList) {fact : Fact}
    (hFact : Fact.ofText text = .ok fact) : ofText text = .ok ⟨[fact], []⟩ := by
  have hStripped : Fact.ofText (String.ofList (Text.strip text.toList)) = .ok fact := by
    rw [Fact.ofText_eq_ok_iff, String.toList_ofList, Fact.symbols?, Text.strip_strip, ← Fact.symbols?]
    exact Fact.ofText_eq_ok_iff.mp hFact
  have hSpoken : isSilent (Text.strip text.toList) = false := by
    obtain ⟨inner, hShape, -⟩ := Fact.symbols?_eq_some_iff.mp (Fact.ofText_eq_ok_iff.mp hFact).1
    rw [hShape]
    rfl
  rw [ofText_of_spoken hLine hSpoken, readLine, Assignment.isMeant_of_fact hStripped, if_neg Bool.false_ne_true,
    hStripped]
  rfl

/-- A document of one line without the blank is refused. -/
theorem ofText_of_isTight {text : String} (hLine : '\n' ∉ text.toList) (hTight : Assignment.IsTight text) :
    let stripped := String.ofList (Text.strip text.toList)
    ofText text = .error ⟨.notFact stripped, 1, stripped⟩ := by
  intro stripped
  obtain ⟨rest, hAfter⟩ := Assignment.isTight_iff.mp hTight
  have hOther := Assignment.isMeant_of_isTight hTight
  obtain ⟨gap, rest, -, hShape⟩ := hTight
  have hStripped : Text.strip stripped.toList = '(' :: (gap ++ '=' :: '(' :: rest) := by
    rw [String.toList_ofList, Text.strip_strip, hShape]
  have hFact : Fact.ofText stripped = .error (.notFact stripped) := Fact.ofText_eq_notFact hStripped (by simp)
  rw [ofText_of_spoken hLine (isSilent_of_afterEquals? hAfter), readLine, Assignment.isMeant_strip, hOther,
    if_neg Bool.false_ne_true, hFact]
  rfl

/-- A document of one line describes a single assignment exactly if the line denotes the assignment and has a blank
after its equality sign.  Without the blank it is refused as no fact, even if the line denotes an assignment. -/
theorem ofText_eq_assignment_iff {text : String} (hLine : '\n' ∉ text.toList) (assignment : Assignment) :
    (ofText text = .ok ⟨[], [assignment]⟩ ↔ Assignment.ofText text = .ok assignment ∧ ¬ Assignment.IsTight text) ∧
      (Assignment.IsTight text →
        let stripped := String.ofList (Text.strip text.toList)
        ofText text = .error ⟨.notFact stripped, 1, stripped⟩) := by
  refine ⟨?_, fun hTight => ofText_of_isTight hLine hTight⟩
  rw [ofText_singleton_iff hLine, and_comm]
  exact and_congr_right fun hText => Assignment.isMeant_iff_of_ofText hText

/-- Here blanks of several kinds stand around every symbol. -/
theorem ofText_eq_assignment_iff_spaced :
    let text := "\t( \t=\u00a0(f  a)\t1 ) "
    let assignment : Assignment := ⟨⟨"f", ["a"]⟩, 1⟩
    '\n' ∉ text.toList ∧ Assignment.ofText text = .ok assignment ∧ ¬ Assignment.IsTight text ∧
      ofText text = .ok ⟨[], [assignment]⟩ := by
  intro text assignment
  have hLine : '\n' ∉ text.toList := by decide +kernel
  have hText : Assignment.ofText text = .ok assignment := by
    have hParts : Assignment.parts? text.toList = some ("(f  a)".toList, ['1']) := by decide +kernel
    have hHead : Fact.ofText (String.ofList "(f  a)".toList) = .ok assignment.head := by decide +kernel
    have hNumber : Decimal.numeral? ['1'] = some assignment.value := by decide +kernel
    rw [Assignment.ofText, hParts]
    simp only [hHead, hNumber]
  have hLoose : ¬ Assignment.IsTight text := fun hTight => by
    have hMeant : Assignment.isMeant text = true := by decide +kernel
    rw [Assignment.isMeant_of_isTight hTight] at hMeant
    exact Bool.false_ne_true hMeant
  exact ⟨hLine, hText, hLoose, (ofText_eq_assignment_iff hLine assignment).1.mpr ⟨hText, hLoose⟩⟩

/-- A line that denotes an assignment, and that is no document. -/
theorem ofText_eq_assignment_iff_tight :
    let text := "(=(f) 1)"
    '\n' ∉ text.toList ∧ Assignment.ofText text = .ok ⟨⟨"f", []⟩, 1⟩ ∧ Assignment.isMeant text = false ∧
      ofText text = .error ⟨.notFact text, 1, text⟩ := by
  intro text
  have hText : Assignment.ofText text = .ok ⟨⟨"f", []⟩, 1⟩ := by
    have hParts : Assignment.parts? text.toList = some ("(f)".toList, ['1']) := by decide +kernel
    have hHead : Fact.ofText (String.ofList "(f)".toList) = .ok ⟨"f", []⟩ := by decide +kernel
    have hNumber : Decimal.numeral? ['1'] = some 1 := by decide +kernel
    rw [Assignment.ofText, hParts]
    simp only [hHead, hNumber]
  exact ⟨by decide +kernel, hText, by decide +kernel, by decide +kernel⟩

end Snapshot
end PlanLogic
