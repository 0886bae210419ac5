import PlanLogic.Proofs.Decimal.Numerals
import PlanLogic.Proofs.Facts.Keys
import PlanLogic.Proofs.Printing.RoundTrip

/-!
# Texts of assignments

The text of an assignment to a head that a document can state denotes the assignment, whatever its value, and it
is meant as an assignment.  The text of a fact is never meant as one.
-/

namespace PlanLogic

theorem isName_text (layout : Decimal.Layout) (x : Float) : IsName (layout.text x) := by
  obtain ⟨hSome, hChars⟩ := Decimal.text_letters layout x
  have hLetters : Decimal.specialLetters.all Token.isSymbolChar = true := by decide
  refine ⟨hSome, fun c hMem => ?_⟩
  rcases List.mem_append.mp (hChars c hMem) with hNumber | hLetter
  · exact isSymbolChar_of_mem_numberChars c hNumber
  · exact List.all_eq_true.mp hLetters c hLetter

namespace Assignment

theorem toList_text (assignment : Assignment) :
    assignment.text.toList = '(' ::
      (('=' :: ' ' :: assignment.head.key.toList ++
        ' ' :: (Decimal.plainText assignment.value).toList) ++ [')']) := by
  simp [text]

/-- What follows an equality sign with a blank after it. -/
theorem afterEquals?_blank (inner : List Char) :
    afterEquals? (Text.strip ('(' :: (('=' :: ' ' :: inner) ++ [')']))) = some (' ' :: (inner ++ [')'])) := by
  rw [Text.strip_enclosed, afterEquals?, List.cons_append, List.cons_append, Text.stripStart_cons (by decide)]
  rfl

/-- A text with a blank after its equality sign is meant as an assignment. -/
theorem isMeant_blank {text : String} {inner : List Char}
    (hText : text.toList = '(' :: (('=' :: ' ' :: inner) ++ [')'])) : isMeant text = true := by
  rw [isMeant, hText, afterEquals?_blank]
  rfl

/-- An assignment is meant as one. -/
theorem isMeant_text (assignment : Assignment) : isMeant assignment.text = true :=
  isMeant_blank assignment.toList_text

/-- A head is taken from the front of a text. -/
theorem takeHead?_enclosed {inner : List Char} (hInner : ∀ c ∈ inner, Token.isParenthesis c = false)
    (rest : List Char) : takeHead? ('(' :: (inner ++ [')']) ++ rest) = some ('(' :: (inner ++ [')']), rest) := by
  have hInside : ∀ c ∈ inner, (!Token.isParenthesis c) = true := fun c hMem => by
    rw [hInner c hMem]
    rfl
  rw [List.cons_append, List.append_assoc, takeHead?, List.dropWhile_append_of_pos hInside,
    List.takeWhile_append_of_pos hInside, List.singleton_append, List.dropWhile_cons_of_neg (by decide),
    List.takeWhile_cons_of_neg (by decide), List.append_nil]
  rfl

/-- A value is taken from the end of a text. -/
theorem valueText?_name {gap : List Char} (hSome : gap ≠ []) (hGap : ∀ c ∈ gap, Text.isBlank c = true)
    {value : String} (hValue : IsName value) : valueText? (gap ++ (value.toList ++ [')'])) = some value.toList := by
  have hStart : Text.stripStart (gap ++ (value.toList ++ [')'])) = value.toList ++ [')'] := by
    obtain ⟨c, cs, hText, hBlank⟩ := hValue.exists_cons
    rw [Text.stripStart, List.dropWhile_append_of_pos hGap, hText, List.cons_append,
      List.dropWhile_cons_of_neg (by simp [hBlank])]
  have hTake : (value.toList ++ [')']).takeWhile Token.isSymbolChar = value.toList := by
    rw [List.takeWhile_append_of_pos hValue.chars, List.takeWhile_cons_of_neg (by decide), List.append_nil]
  have hDrop : (value.toList ++ [')']).dropWhile Token.isSymbolChar = [')'] := by
    rw [List.dropWhile_append_of_pos hValue.chars, List.dropWhile_cons_of_neg (by decide)]
  have hEnd : Text.stripStart [')'] = [')'] := Text.stripStart_cons (by decide) []
  have hShorter : (value.toList ++ [')']).length < (gap ++ (value.toList ++ [')'])).length := by
    have hLength : (gap ++ (value.toList ++ [')'])).length = gap.length + (value.toList ++ [')']).length :=
      List.length_append
    have hPositive := List.length_pos_iff.mpr hSome
    omega
  rw [valueText?, hStart, hTake, hDrop, if_pos ⟨hShorter, hValue.nonempty, hEnd⟩]

/-- Whatever blanks stand around the head of an assignment, its head and its value are found. -/
theorem ofText_spaced {front inner back : List Char} (hFront : ∀ c ∈ front, Text.isBlank c = true)
    (hInner : ∀ c ∈ inner, Token.isParenthesis c = false) (hBack : ∀ c ∈ back, Text.isBlank c = true)
    {value : String} (hValue : IsName value) {text : String} (hText : text.toList =
      '(' :: (('=' :: ' ' :: (front ++ ('(' :: (inner ++ [')']) ++ back) ++ ' ' :: value.toList)) ++ [')']))
    {fact : Fact} (hFact : Fact.ofText (String.ofList ('(' :: (inner ++ [')']))) = .ok fact) {number : Float}
    (hNumber : Decimal.numeral? value.toList = some number) : ofText text = .ok ⟨fact, number⟩ := by
  have hAround : front ++ ('(' :: (inner ++ [')']) ++ back) ++ ' ' :: value.toList ++ [')'] =
      front ++ ('(' :: (inner ++ [')']) ++ ((back ++ [' ']) ++ (value.toList ++ [')']))) := by simp
  have hGap : ∀ c ∈ back ++ [' '], Text.isBlank c = true :=
    List.forall_mem_append.mpr ⟨hBack, List.forall_mem_singleton.mpr (by decide)⟩
  have hParts : parts? text.toList = some ('(' :: (inner ++ [')']), value.toList) := by
    rw [hText, parts?, afterEquals?_blank, Option.bind_some, Text.stripStart_cons_blank (by decide), hAround,
      Text.stripStart, List.dropWhile_append_of_pos hFront, List.cons_append, List.dropWhile_cons_of_neg (by decide),
      ← List.cons_append, takeHead?_enclosed hInner, Option.bind_some,
      valueText?_name (List.append_ne_nil_of_right_ne_nil back (List.cons_ne_nil _ _)) hGap hValue]
    rfl
  rw [ofText, hParts]
  simp only [hFact, hNumber]

/-- The text of an assignment denotes the assignment. -/
theorem ofText_text {assignment : Assignment} (hHead : assignment.head.Writable) :
    ofText assignment.text = .ok assignment := by
  have hNone : ∀ c ∈ ([] : List Char), Text.isBlank c = true := fun _ hMem => absurd hMem List.not_mem_nil
  have hText := assignment.toList_text
  have hFact := hHead.ofText_key
  rw [← String.ofList_toList (s := assignment.head.key)] at hFact
  rw [Fact.toList_key] at hText hFact
  refine ofText_spaced hNone hHead.spelled.not_parenthesis hNone (isName_text Decimal.Layout.plain assignment.value)
    ?_ hFact (Decimal.numeral?_text Decimal.Layout.plain assignment.value)
  rw [hText, List.nil_append, List.append_nil]
  rfl

theorem lineFeed_notMem_text {assignment : Assignment} (hHead : assignment.head.Spelled) :
    '\n' ∉ assignment.text.toList := by
  have hValue : '\n' ∉ (Decimal.plainText assignment.value).toList := fun hMem =>
    absurd ((isName_text Decimal.Layout.plain assignment.value).not_blank '\n' hMem) (by decide)
  have hKey := hHead.lineFeed_notMem_key
  rw [toList_text]
  simp [hKey, hValue]

/-- A text denotes only assignments to heads that a document can state. -/
theorem writable_of_ofText {text : String} {assignment : Assignment} (hText : ofText text = .ok assignment) :
    assignment.head.Writable := by
  rw [ofText] at hText
  split at hText
  · exact absurd hText (by simp)
  split at hText
  · exact absurd hText (by simp)
  next fact hFact =>
  split at hText
  · exact absurd hText (by simp)
  obtain rfl := Except.ok.inj hText
  exact Fact.writable_of_ofText hFact

/-- A text that denotes a fact is not meant as an assignment: its name is more than an equality sign. -/
theorem isMeant_of_fact {text : String} {fact : Fact} (hText : Fact.ofText text = .ok fact) : isMeant text = false := by
  obtain ⟨hSymbols, hAllowed⟩ := Fact.ofText_eq_ok_iff.mp hText
  obtain ⟨inner, hShape, -, hWords⟩ := Fact.symbols?_eq_some_iff.mp hSymbols
  rw [isMeant, hShape, afterEquals?, Text.stripStart, List.dropWhile_append, ← Text.stripStart]
  rw [← Text.words_stripStart] at hWords
  cases hStart : Text.stripStart inner with
  | nil =>
      rw [hStart] at hWords
      exact absurd hWords (List.cons_ne_nil _ _).symm
  | cons c rest =>
      rw [hStart] at hWords
      by_cases hEquals : c = '='
      · subst hEquals
        cases rest with
        | nil => rfl
        | cons d rest =>
            cases hBlank : Text.isBlank d with
            | false => exact hBlank
            | true =>
                -- Before the blank the equality sign is a word by itself.
                rw [← List.singleton_append, Text.words_append_blank hBlank] at hWords
                rw [← (List.cons.inj hWords).1] at hAllowed
                exact absurd hAllowed (by decide)
      · simp [hEquals]

end Assignment
end PlanLogic
