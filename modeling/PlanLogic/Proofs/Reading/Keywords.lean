import PlanLogic.Proofs.Reading.Grammar
import PlanLogic.Proofs.Text.Lowercase

/-!
# Keywords

The reader looks for a keyword in the lower-case form of a name.  Some characters of other scripts have a small Latin
letter as their lower-case form, or a text that has one: the Kelvin sign and the capital I with a dot.  But no keyword
has a k, and what the latter gives has a dot that no keyword has.  So the names that the reader takes for a keyword are
exactly those that are the keyword in upper and lower case.
-/

namespace PlanLogic
namespace Condition

/-- The letters and signs that keywords are made of: the small letters other than k, and four signs. -/
def keywordLetters : List Char :=
  "abcdefghijlmnopqrstuvwxyz-<=>".toList

theorem mem_keywordLetters {keyword : String} (hKeyword : keyword ∈ keywords) {letter : Char}
    (hLetter : letter ∈ keyword.toList) : letter ∈ keywordLetters := by
  have hAll : (keywords.all fun keyword => keyword.toList.all keywordLetters.contains) = true := by
    decide +kernel
  exact List.contains_iff_mem.mp (List.all_eq_true.mp (List.all_eq_true.mp hAll keyword hKeyword) letter hLetter)

/-! ## Letters -/

theorem simpleLower_letter {letter : Char} (hLetter : letter ∈ keywordLetters) :
    Text.simpleLower letter = letter ∧ Text.simpleLower letter.toUpper = letter := by
  have hAll : (keywordLetters.all fun letter =>
      Text.simpleLower letter == letter && Text.simpleLower letter.toUpper == letter) = true := by
    decide +kernel
  have hHere := List.all_eq_true.mp hAll letter hLetter
  rwa [Bool.and_eq_true, beq_iff_eq, beq_iff_eq] at hHere

/-- The table leads to a letter of a keyword only from the same letter in upper case. -/
theorem code_of_contains {letter : Char} (hLetter : letter ∈ keywordLetters) {run : Text.LowerRun}
    (hRun : run ∈ Text.lowerRuns) (hCode : run.contains (letter.toNat - run.shift).toNat = true) :
    (letter.toNat - run.shift).toNat = letter.toUpper.toNat := by
  have hAll : (keywordLetters.all fun letter => Text.lowerRuns.all fun run =>
      !run.contains (letter.toNat - run.shift).toNat ||
        (letter.toNat - run.shift).toNat == letter.toUpper.toNat) = true := by
    decide +kernel
  have hHere := List.all_eq_true.mp (List.all_eq_true.mp hAll letter hLetter) run hRun
  rw [hCode] at hHere
  simpa using hHere

theorem simpleLower_eq_letter_iff {letter : Char} (hLetter : letter ∈ keywordLetters) {c : Char} :
    Text.simpleLower c = letter ↔ c = letter ∨ c = letter.toUpper := by
  constructor
  · intro hLower
    rw [Text.simpleLower] at hLower
    split at hLower
    · next run hFound =>
        right
        have hRun := List.mem_of_find?_eq_some hFound
        have hCode := List.find?_some hFound
        obtain ⟨hPositive, hChar⟩ :=
          Text.LowerRun.isValidChar_of_isValid (Text.isFinal_of_mem_lowerRuns run hRun).1 hCode
        have hNat : (c.toNat + run.shift).toNat = letter.toNat := by
          rw [← hLower, Char.ofNat, dif_pos hChar]
          rfl
        have hBack : (letter.toNat - run.shift).toNat = c.toNat := by
          have hFirst := (Text.LowerRun.contains_iff.mp hCode).1
          omega
        have hUpper := code_of_contains hLetter hRun (hBack ▸ hCode)
        exact Char.toNat_inj.mp (hBack.symm.trans hUpper)
    · exact Or.inl hLower
  · rintro (rfl | rfl)
    · exact (simpleLower_letter hLetter).1
    · exact (simpleLower_letter hLetter).2

/-- The two characters with rules of their own do not stand for a letter, and not even for a part of a keyword. -/
theorem ne_of_letter {letter c : Char} (hLetter : letter ∈ keywordLetters)
    (hCase : c = letter ∨ c = letter.toUpper) : c ≠ 'Σ' ∧ c ≠ 'İ' := by
  have hAll : (keywordLetters.all fun letter => letter != 'Σ' && letter != 'İ' && letter.toUpper != 'Σ' &&
      letter.toUpper != 'İ') = true := by
    decide +kernel
  have hHere := List.all_eq_true.mp hAll letter hLetter
  simp only [Bool.and_eq_true, bne_iff_ne] at hHere
  rcases hCase with rfl | rfl
  · exact ⟨hHere.1.1.1, hHere.1.1.2⟩
  · exact ⟨hHere.1.2, hHere.2⟩

theorem exists_notMem_keywordLetters {before after : List Char} {c : Char} (hRule : c = 'Σ' ∨ c = 'İ') :
    ∃ d ∈ Text.lowerAt before c after, d ∉ keywordLetters := by
  rcases hRule with rfl | rfl
  · rw [Text.lowerAt, if_pos rfl]
    split
    · exact ⟨'ς', List.mem_singleton_self _, by decide⟩
    · exact ⟨'σ', List.mem_singleton_self _, by decide⟩
  · rw [Text.lowerAt, if_neg (by decide), if_pos rfl]
    exact ⟨'\u0307', List.mem_cons_of_mem _ (List.mem_singleton_self _), by decide⟩

/-! ## Names -/

/-- A text is some letters of keywords in lower case if and only if it is these in upper and lower case. -/
theorem lowerFrom_eq_iff {cs letters : List Char} (hLetters : ∀ letter ∈ letters, letter ∈ keywordLetters)
    (before : List Char) :
    Text.lowerFrom before cs = letters ↔
      List.Forall₂ (fun c letter => c = letter ∨ c = letter.toUpper) cs letters := by
  induction cs generalizing before letters with
  | nil => rw [Text.lowerFrom, List.forall₂_nil_left_iff, eq_comm]
  | cons c cs ih =>
  rw [Text.lowerFrom]
  by_cases hRule : c = 'Σ' ∨ c = 'İ'
  · refine iff_of_false (fun hLower => ?_) (fun hCases => ?_)
    · obtain ⟨d, hMem, hOther⟩ := exists_notMem_keywordLetters hRule
      exact hOther (hLetters d (hLower ▸ List.mem_append_left _ hMem))
    · cases hCases with
      | cons hCase _ =>
          obtain ⟨hSigma, hDotted⟩ := ne_of_letter (hLetters _ List.mem_cons_self) hCase
          exact hRule.elim hSigma hDotted
  · rw [not_or] at hRule
    rw [Text.lowerAt, if_neg hRule.1, if_neg hRule.2, List.singleton_append]
    cases letters with
    | nil =>
        rw [List.forall₂_nil_right_iff]
        exact iff_of_false (List.cons_ne_nil _ _) (List.cons_ne_nil _ _)
    | cons letter letters =>
        obtain ⟨hFirst, hRest⟩ := List.forall_mem_cons.mp hLetters
        rw [List.cons.injEq, List.forall₂_cons, simpleLower_eq_letter_iff hFirst, ih hRest]

theorem keywordOf_eq_iff {name keyword : String} (hKeyword : keyword ∈ keywords) :
    keywordOf name = keyword ↔ IsCasing name keyword := by
  rw [keywordOf, ← String.toList_inj, String.toList_ofList, Text.lowercase, IsCasing]
  exact lowerFrom_eq_iff (fun _ hLetter => mem_keywordLetters hKeyword hLetter) []

theorem keywordOf_mem_keywords_iff {name : String} : keywordOf name ∈ keywords ↔ IsKeyword name := by
  constructor
  · exact fun hMem => ⟨_, hMem, (keywordOf_eq_iff hMem).mp rfl⟩
  · rintro ⟨keyword, hMem, hCasing⟩
    rwa [(keywordOf_eq_iff hMem).mpr hCasing]

end Condition
end PlanLogic
