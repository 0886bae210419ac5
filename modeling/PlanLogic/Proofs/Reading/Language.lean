import PlanLogic.Token.Cursor

/-!
# The language of a reading step

A reading step is described by a relation between the texts of the tokens that it consumes and the value that
it returns.  The description is exact: the step succeeds on a list of tokens if and only if some front part of
the list spells a word of the language, and what follows that part is left untouched and never looked at.  A
step that refuses its input leaves an end of it.

The lemmas below describe the elementary steps and their sequence, so that the language of a whole reader is
put together from those of its parts.  They are stated for lists up to a bound, since a recursive reader is
described by an induction on how many tokens it may still see.
-/

namespace PlanLogic
namespace Reading

/-- Words, as texts of tokens, with the value that is read from them. -/
abbrev Language (α : Type) := List String → α → Prop

/-- On at most `bound` tokens, a step reads exactly the words of a language. -/
structure ReadsWithin (bound : Nat) (step : Reading α) (language : Language α) : Prop where
  ok_iff : ∀ {tokens value rest}, tokens.length ≤ bound →
    (step tokens = .ok value rest ↔
      ∃ used, tokens = used ++ rest ∧ language (used.map Token.text) value)
  suffix_of_error : ∀ {tokens cause rest}, tokens.length ≤ bound →
    step tokens = .error cause rest → rest <:+ tokens

/-- A step reads exactly the words of a language. -/
def Reads (step : Reading α) (language : Language α) : Prop :=
  ∀ bound, ReadsWithin bound step language

/-- The words of one language followed by those of another, which may depend on the value of the first. -/
def Language.andThen (first : Language α) (next : α → Language β) : Language β := fun words value =>
  ∃ left middle right, words = left ++ right ∧ first left middle ∧ next middle right value

/-- The words of a language with a closing parenthesis after them. -/
def Language.closed (language : Language α) : Language α := fun words value =>
  ∃ front, words = front ++ [")"] ∧ language front value

theorem not_closed_nil {language : Language α} {value : α} : ¬ language.closed [] value := by
  rintro ⟨front, hWords, -⟩
  simp at hWords

/-- A sequence of steps succeeds if its steps do. -/
theorem bind_eq_ok {step : Reading α} {next : α → Reading β} {tokens rest : List Token} {value : β} :
    (step >>= next) tokens = .ok value rest ↔
      ∃ first middle, step tokens = .ok first middle ∧ next first middle = .ok value rest := by
  simp only [bind, EStateM.bind]
  split
  · next first middle hStep =>
      simp only [hStep, EStateM.Result.ok.injEq, and_assoc, exists_and_left, exists_eq_left']
  · next cause middle hStep => simp [hStep]

/-- A sequence of steps fails if its first step does, or if the second one does on what the first leaves. -/
theorem bind_eq_error {step : Reading α} {next : α → Reading β} {tokens rest : List Token}
    {cause : ParseError.Cause} :
    (step >>= next) tokens = .error cause rest ↔
      step tokens = .error cause rest ∨
        ∃ first middle, step tokens = .ok first middle ∧ next first middle = .error cause rest := by
  simp only [bind, EStateM.bind]
  split
  · next first middle hStep =>
      simp only [hStep, EStateM.Result.ok.injEq, reduceCtorEq, false_or, and_assoc, exists_and_left,
        exists_eq_left']
  · next found middle hStep => simp [hStep]

namespace ReadsWithin

variable {bound : Nat} {step : Reading α} {language : Language α}

/-- What a successful step leaves is an end of its input. -/
theorem suffix_of_ok (hStep : ReadsWithin bound step language) {tokens rest : List Token} {value : α}
    (hBound : tokens.length ≤ bound) (hOk : step tokens = .ok value rest) : rest <:+ tokens := by
  obtain ⟨used, hTokens, -⟩ := (hStep.ok_iff hBound).mp hOk
  exact ⟨used, hTokens.symm⟩

/-- Two descriptions of one step agree if they hold of the same words. -/
theorem congr {other : Language α} (hStep : ReadsWithin bound step language)
    (hSame : ∀ words value, language words value ↔ other words value) :
    ReadsWithin bound step other where
  ok_iff hBound := by simp only [hStep.ok_iff hBound, hSame]
  suffix_of_error := hStep.suffix_of_error

/-- The language of a sequence. -/
theorem bind {next : α → Reading β} {nextLanguage : α → Language β}
    (hStep : ReadsWithin bound step language)
    (hNext : ∀ value, ReadsWithin bound (next value) (nextLanguage value)) :
    ReadsWithin bound (step >>= next) (language.andThen nextLanguage) where
  ok_iff {tokens value rest} hBound := by
    rw [bind_eq_ok]
    constructor
    · rintro ⟨first, middle, hFirst, hSecond⟩
      have hMiddle : middle.length ≤ bound :=
        Nat.le_trans (hStep.suffix_of_ok hBound hFirst).length_le hBound
      obtain ⟨left, hTokens, hLeft⟩ := (hStep.ok_iff hBound).mp hFirst
      obtain ⟨right, hRest, hRight⟩ := ((hNext first).ok_iff hMiddle).mp hSecond
      refine ⟨left ++ right, by rw [hTokens, hRest, List.append_assoc], ?_⟩
      exact ⟨_, first, _, List.map_append, hLeft, hRight⟩
    · rintro ⟨used, hTokens, left, first, right, hWords, hLeft, hRight⟩
      -- The words are split, so the tokens that were used are split at the same place.
      obtain ⟨usedLeft, usedRight, hUsed, rfl, rfl⟩ := List.map_eq_append_iff.mp hWords
      subst hUsed
      rw [List.append_assoc] at hTokens
      have hMiddle : (usedRight ++ rest).length ≤ bound := by
        have hLength := congrArg List.length hTokens
        simp only [List.length_append] at hLength ⊢
        omega
      refine ⟨first, usedRight ++ rest, (hStep.ok_iff hBound).mpr ⟨usedLeft, hTokens, hLeft⟩, ?_⟩
      exact ((hNext first).ok_iff hMiddle).mpr ⟨usedRight, rfl, hRight⟩
  suffix_of_error {tokens cause rest} hBound hError := by
    obtain hFirst | ⟨first, middle, hFirst, hSecond⟩ := bind_eq_error.mp hError
    · exact hStep.suffix_of_error hBound hFirst
    · have hSuffix := hStep.suffix_of_ok hBound hFirst
      exact ((hNext first).suffix_of_error (Nat.le_trans hSuffix.length_le hBound) hSecond).trans hSuffix

/-- A step that refuses the empty input accepts nothing on it. -/
theorem zero {cause : ParseError.Cause} (hNil : step [] = .error cause [])
    (hLanguage : ∀ value, ¬ language [] value) : ReadsWithin 0 step language where
  ok_iff {tokens value rest} hBound := by
    obtain rfl : tokens = [] := List.length_eq_zero_iff.mp (Nat.le_zero.mp hBound)
    constructor
    · simp [hNil]
    · rintro ⟨used, hTokens, hWord⟩
      obtain ⟨rfl, rfl⟩ := List.append_eq_nil_iff.mp hTokens.symm
      exact absurd hWord (hLanguage value)
  suffix_of_error {tokens found rest} hBound hError := by
    obtain rfl : tokens = [] := List.length_eq_zero_iff.mp (Nat.le_zero.mp hBound)
    simp only [hNil, EStateM.Result.error.injEq] at hError
    exact hError.2 ▸ List.suffix_rfl

/-- The language of a step that goes on according to the first token.  It may also refuse a token that it
leaves in place, if no word starts with it. -/
theorem of_head {cause : ParseError.Cause} (hNil : step [] = .error cause [])
    (hLanguage : ∀ value, ¬ language [] value)
    (hCons : ∀ token tokens,
      (∃ after, ReadsWithin bound after (fun words => language (token.text :: words)) ∧
          step (token :: tokens) = after tokens) ∨
        (∃ found, step (token :: tokens) = .error found (token :: tokens)) ∧
          ∀ words value, ¬ language (token.text :: words) value) :
    ReadsWithin (bound + 1) step language where
  ok_iff {tokens value rest} hBound := by
    cases tokens with
    | nil =>
        constructor
        · simp [hNil]
        · rintro ⟨used, hTokens, hWord⟩
          obtain ⟨rfl, -⟩ := List.append_eq_nil_iff.mp hTokens.symm
          exact absurd hWord (hLanguage value)
    | cons token tokens =>
        have hTail : tokens.length ≤ bound := Nat.le_of_succ_le_succ hBound
        constructor
        · intro hOk
          obtain ⟨after, hAfter, hStep⟩ | ⟨⟨found, hStep⟩, -⟩ := hCons token tokens
          · rw [hStep] at hOk
            obtain ⟨used, rfl, hWord⟩ := (hAfter.ok_iff hTail).mp hOk
            exact ⟨token :: used, rfl, hWord⟩
          · simp [hStep] at hOk
        · rintro ⟨used, hTokens, hWord⟩
          cases used with
          | nil => exact absurd hWord (hLanguage value)
          | cons first used =>
              obtain ⟨rfl, hTokensTail⟩ := List.cons.inj (hTokens.trans (List.cons_append ..))
              obtain ⟨after, hAfter, hStep⟩ | ⟨-, hNone⟩ := hCons token tokens
              · rw [hStep]
                exact (hAfter.ok_iff hTail).mpr ⟨used, hTokensTail, hWord⟩
              · exact absurd hWord (hNone _ _)
  suffix_of_error {tokens found rest} hBound hError := by
    cases tokens with
    | nil =>
        simp only [hNil, EStateM.Result.error.injEq] at hError
        exact hError.2 ▸ List.suffix_rfl
    | cons token tokens =>
        have hTail : tokens.length ≤ bound := Nat.le_of_succ_le_succ hBound
        obtain ⟨after, hAfter, hStep⟩ | ⟨⟨other, hStep⟩, -⟩ := hCons token tokens
        · rw [hStep] at hError
          exact (hAfter.suffix_of_error hTail hError).trans (List.suffix_cons token tokens)
        · simp only [hStep, EStateM.Result.error.injEq] at hError
          exact hError.2 ▸ List.suffix_rfl

end ReadsWithin

/-- Returning a value consumes nothing. -/
theorem reads_pure (value : α) : Reads (pure value) fun words read => words = [] ∧ read = value :=
  fun _ =>
    { ok_iff := by
        intro tokens read rest _
        simp only [pure, EStateM.pure, EStateM.Result.ok.injEq, List.map_eq_nil_iff]
        constructor
        · rintro ⟨rfl, rfl⟩
          exact ⟨[], rfl, rfl, rfl⟩
        · rintro ⟨used, hTokens, rfl, rfl⟩
          exact ⟨rfl, hTokens⟩
      suffix_of_error := by
        intro tokens cause rest _ hError
        simp [pure, EStateM.pure] at hError }

/-- Refusing accepts nothing. -/
theorem reads_refuse (cause : ParseError.Cause) : Reads (refuse cause : Reading α) fun _ _ => False :=
  fun _ =>
    { ok_iff := by simp [refuse]
      suffix_of_error := by
        intro tokens found rest _ hError
        simp only [refuse, EStateM.Result.error.injEq] at hError
        exact hError.2 ▸ List.suffix_rfl }

/-- The next token is any one token. -/
theorem reads_next : Reads next fun words text => words = [text] :=
  fun _ =>
    { ok_iff := by
        intro tokens text rest _
        cases tokens with
        | nil => simp [next]
        | cons token tokens =>
            simp only [next, EStateM.Result.ok.injEq, List.map_eq_singleton_iff]
            constructor
            · rintro ⟨rfl, rfl⟩
              exact ⟨[token], rfl, token, rfl, rfl⟩
            · rintro ⟨used, hTokens, found, rfl, rfl⟩
              obtain ⟨rfl, rfl⟩ := List.cons.inj hTokens
              exact ⟨rfl, rfl⟩
      suffix_of_error := by
        intro tokens cause rest _ hError
        cases tokens with
        | nil =>
            simp only [next, EStateM.Result.error.injEq] at hError
            exact hError.2 ▸ List.suffix_rfl
        | cons token tokens => simp [next] at hError }

/-- An expected token is that token. -/
theorem reads_expect (wanted : String) : Reads (expect wanted) fun words _ => words = [wanted] :=
  fun _ =>
    { ok_iff := by
        intro tokens value rest _
        cases tokens with
        | nil => simp [expect]
        | cons token tokens =>
            simp only [expect, List.map_eq_singleton_iff]
            constructor
            · intro hOk
              split at hOk
              · next hText =>
                  simp only [EStateM.Result.ok.injEq, true_and] at hOk
                  exact ⟨[token], by simp [hOk], token, rfl, hText⟩
              · simp at hOk
            · rintro ⟨used, hTokens, found, rfl, hText⟩
              obtain ⟨rfl, rfl⟩ := List.cons.inj hTokens
              rw [if_pos hText]
      suffix_of_error := by
        intro tokens cause rest _ hError
        cases tokens with
        | nil =>
            simp only [expect, EStateM.Result.error.injEq] at hError
            exact hError.2 ▸ List.suffix_rfl
        | cons token tokens =>
            simp only [expect] at hError
            split at hError
            · simp at hError
            · simp only [EStateM.Result.error.injEq] at hError
              exact hError.2 ▸ List.suffix_rfl }

namespace ReadsWithin

variable {bound : Nat} {step : Reading α} {language : Language α}

/-- The language of a step whose value is changed. -/
theorem map (hStep : ReadsWithin bound step language) (change : α → β) :
    ReadsWithin bound (do let value ← step; return change value)
      fun words read => ∃ value, language words value ∧ read = change value := by
  refine (hStep.bind fun value => reads_pure (change value) bound).congr fun words read => ?_
  constructor
  · rintro ⟨front, value, _, rfl, hWord, rfl, rfl⟩
    exact ⟨value, by rwa [List.append_nil], rfl⟩
  · rintro ⟨value, hWord, rfl⟩
    exact ⟨words, value, [], (List.append_nil words).symm, hWord, rfl, rfl⟩

/-- The language of a step before a closing parenthesis. -/
theorem closed_map (hStep : ReadsWithin bound step language) (change : α → β) :
    ReadsWithin bound (do let value ← step; expect ")"; return change value)
      fun words read => ∃ value, language.closed words value ∧ read = change value := by
  refine (hStep.bind fun value => (reads_expect ")" bound).bind fun _ =>
    reads_pure (change value) bound).congr fun words read => ?_
  constructor
  · rintro ⟨front, value, _, rfl, hWord, _, _, _, rfl, rfl, rfl, rfl⟩
    exact ⟨value, ⟨front, by rw [List.append_nil], hWord⟩, rfl⟩
  · rintro ⟨value, ⟨front, rfl, hWord⟩, rfl⟩
    exact ⟨front, value, [")"], rfl, hWord, [")"], (), [], rfl, rfl, rfl, rfl⟩

end ReadsWithin

/-- A step that is known for every bound may be given the length of its input as the bound. -/
theorem reads_of_length {step : Nat → Reading α} {language : Language α}
    (hStep : ∀ bound, ReadsWithin bound (step bound) language) :
    Reads (fun tokens => step tokens.length tokens) language :=
  fun _ =>
    { ok_iff := fun {tokens _ _} _ => (hStep tokens.length).ok_iff (Nat.le_refl _)
      suffix_of_error := fun {tokens _ _} _ hError =>
        (hStep tokens.length).suffix_of_error (Nat.le_refl _) hError }

end Reading
end PlanLogic
