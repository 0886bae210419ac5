import PlanLogic.Proofs.Documents.Statements

/-!
# Line numbers of refused documents

The error of a document quotes a line and gives its number.  Lines are counted after the document was stripped.  So
the number is that of the quoted line in the document itself exactly if no line feed is among the blanks at its start;
each line feed there makes the number one too small.
-/

namespace PlanLogic

namespace Snapshot

/-- A line that a document may have: a silent one, or one that states something. -/
def IsAccepted (line : List Char) : Prop :=
  isSilent (Text.strip line) = true ∨
    ∃ statement, Statement.ofLine (String.ofList (Text.strip line)) = .ok statement

/-- Whether a line is accepted depends on the stripped line only. -/
theorem IsAccepted.congr {line other : List Char} (hLine : IsAccepted line)
    (hStrip : Text.strip line = Text.strip other) : IsAccepted other := by
  rwa [IsAccepted, ← hStrip]

theorem isAccepted_nil : IsAccepted [] :=
  .inl rfl

/-- Lines of which every spoken one states something are accepted. -/
theorem isAccepted_of_spokenLines {lines : List (List Char)}
    (hSpoken : ∀ spoken ∈ spokenLines lines, ∃ statement, Statement.ofLine spoken = .ok statement) :
    ∀ line ∈ lines, IsAccepted line := by
  intro line hMem
  by_cases hSilent : isSilent (Text.strip line) = true
  · exact .inl hSilent
  · refine .inr (hSpoken _ (List.mem_map_of_mem (List.mem_filter.mpr ⟨List.mem_map_of_mem hMem, ?_⟩)))
    rw [Bool.not_eq_true] at hSilent
    rw [hSilent, Bool.not_false]

end Snapshot

namespace DocumentError

open Snapshot

/-- An error points at the line of a document that has a number, counted from one: stripped, the line is what the error
quotes, and every line before it is accepted. -/
structure PointsAt (error : DocumentError) (number : Nat) (document : List (List Char)) : Prop where
  one_le : 1 ≤ number
  le_length : number ≤ document.length
  quoted : document[number - 1]?.map Text.strip = some error.text.toList
  accepted : ∀ line ∈ document.take (number - 1), IsAccepted line

variable {error : DocumentError} {document : List (List Char)}

/-- Only one line can be refused first. -/
theorem PointsAt.unique {first second : Nat} (hFirst : error.PointsAt first document)
    (hSecond : error.PointsAt second document) (hRefused : ¬ IsAccepted error.text.toList) : first = second := by
  have hNot {low high : Nat} (hLow : error.PointsAt low document) (hHigh : error.PointsAt high document) :
      ¬ low < high := by
    intro hLess
    have hOne := hLow.one_le
    obtain ⟨line, hLine, hStrip⟩ := Option.map_eq_some_iff.mp hLow.quoted
    have hBefore : line ∈ document.take (high - 1) := by
      refine List.mem_of_getElem? (i := low - 1) ?_
      rw [List.getElem?_take_of_lt (by omega), hLine]
    refine hRefused ((hHigh.accepted line hBefore).congr ?_)
    rw [← hStrip, Text.strip_strip]
  have hNotFirst := hNot hFirst hSecond
  have hNotSecond := hNot hSecond hFirst
  omega

/-- An error points at a line if the stripped lines before it are accepted. -/
theorem pointsAt_of_map_strip {before after : List (List Char)}
    (hLines : document.map Text.strip = before ++ error.text.toList :: after)
    (hBefore : ∀ line ∈ before, IsAccepted line) : error.PointsAt (before.length + 1) document := by
  have hLength := congrArg List.length hLines
  rw [List.length_map, List.length_append, List.length_cons] at hLength
  refine ⟨by omega, by omega, ?_, fun line hMem => ?_⟩
  · rw [Nat.add_sub_cancel, ← List.getElem?_map, hLines, List.getElem?_append_right (Nat.le_refl _), Nat.sub_self]
    rfl
  · rw [Nat.add_sub_cancel] at hMem
    have hStripped : Text.strip line ∈ (document.map Text.strip).take before.length := by
      rw [← List.map_take]
      exact List.mem_map_of_mem hMem
    rw [hLines, List.take_left] at hStripped
    exact (hBefore _ hStripped).congr (Text.strip_strip line)

end DocumentError

namespace Snapshot

/-- The error of a document points at the line with its number and the line feeds that stripping took away from the
start, and so at the line with its number itself exactly if there are none. -/
theorem pointsAt_of_ofText {text : String} {error : DocumentError} (hText : ofText text = .error error) :
    let document := Text.lines text.toList
    let feeds := Text.leadingFeeds text.toList
    error.PointsAt (error.line + feeds) document ∧ (error.PointsAt error.line document ↔ feeds = 0) := by
  intro document feeds
  obtain ⟨before, line, after, hLines, hNumber, hQuoted, hSpoken, hBefore, hCause⟩ := isFirstRefused_of_readLines hText
  have hStripped : error.text.toList = Text.strip line := by rw [hQuoted, String.toList_ofList]
  have hRefused : ¬ IsAccepted error.text.toList := by
    rw [IsAccepted, hStripped, Text.strip_strip, hSpoken, ← hQuoted, hCause]
    simp
  have hPoints : error.PointsAt (error.line + feeds) document := by
    obtain ⟨count, hAll⟩ := Text.map_strip_lines text.toList
    rw [hLines, List.map_append, List.map_cons, ← hStripped] at hAll
    have hWhole : document.map Text.strip = (List.replicate feeds [] ++ before.map Text.strip) ++
        error.text.toList :: (after.map Text.strip ++ List.replicate count []) := by
      rw [hAll]
      simp only [List.append_assoc, List.cons_append]
      rfl
    have hEarlier : ∀ earlier ∈ List.replicate feeds [] ++ before.map Text.strip, IsAccepted earlier := by
      intro earlier hMem
      rcases List.mem_append.mp hMem with hFeed | hLine
      · rw [List.eq_of_mem_replicate hFeed]
        exact isAccepted_nil
      · obtain ⟨other, hOther, rfl⟩ := List.mem_map.mp hLine
        exact (isAccepted_of_spokenLines hBefore other hOther).congr (Text.strip_strip other).symm
    have hCount : error.line + feeds = (List.replicate feeds [] ++ before.map Text.strip).length + 1 := by
      rw [List.length_append, List.length_replicate, List.length_map, hNumber]
      omega
    rw [hCount]
    exact DocumentError.pointsAt_of_map_strip hWhole hEarlier
  refine ⟨hPoints, fun hNumbered => ?_, fun hNone => ?_⟩
  · have hSame := hNumbered.unique hPoints hRefused
    omega
  · rw [hNone, Nat.add_zero] at hPoints
    exact hPoints

/-- Here a remark and a fact stand before the line that is refused, and blanks with two line feeds before them. -/
theorem pointsAt_of_ofText_fourth :
    let text := "\t\n \n# start\n(p a)\n (p a))\n(q)"
    let error : DocumentError := ⟨.notFact "(p a))", 3, "(p a))"⟩
    let document := Text.lines text.toList
    let feeds := Text.leadingFeeds text.toList
    ofText text = .error error ∧ feeds = 2 ∧
      error.PointsAt (error.line + feeds) document ∧ (error.PointsAt error.line document ↔ feeds = 0) := by
  intro text error document feeds
  have hText : ofText text = .error error := by decide +kernel
  exact ⟨hText, by decide +kernel, pointsAt_of_ofText hText⟩

/-- A document that begins with a line feed is refused for its third line under the number of its second one. -/
theorem pointsAt_of_ofText_lineFeed :
    let text := "\n(p a)\nbad"
    let error : DocumentError := ⟨.notFact "bad", 2, "bad"⟩
    ofText text = .error error ∧
      (Text.lines text.toList)[error.line - 1]?.map (fun line => String.ofList (Text.strip line)) = some "(p a)" ∧
      ¬ error.PointsAt error.line (Text.lines text.toList) := by
  intro text error
  have hText : ofText text = .error error := by decide +kernel
  have hSecond : (Text.lines text.toList)[error.line - 1]? = some "(p a)".toList := by decide +kernel
  refine ⟨hText, by rw [hSecond]; decide +kernel, fun hPoints => ?_⟩
  have hQuoted := hPoints.quoted
  rw [hSecond] at hQuoted
  exact absurd hQuoted (by decide +kernel)

end Snapshot
end PlanLogic
