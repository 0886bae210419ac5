import PlanLogic.Proofs.Facts.Keys

/-!
# The shape of facts

The text of a fact has a grammar: one pair of parentheses around a name and its arguments, with blanks before every
argument, and blanks or nothing before the name and before the closing parenthesis.  The relations below say so without
a reader.  The reader takes exactly the texts of this shape whose name is allowed, and says of each other text what
is wrong with it.  The key of a fact is one of the texts that denote it, the same one whichever of them was read.
-/

namespace PlanLogic
namespace Fact

/-- Arguments, each after some blanks, and blanks or nothing at the end. -/
inductive IsArguments : List Char → List String → Prop
  | nil {gap : List Char} (hGap : ∀ c ∈ gap, Text.isBlank c = true) : IsArguments gap []
  | cons {gap rest : List Char} {arg : String} {args : List String} (hSome : gap ≠ [])
      (hGap : ∀ c ∈ gap, Text.isBlank c = true) (hArg : IsName arg) (hRest : IsArguments rest args) :
      IsArguments (gap ++ (arg.toList ++ rest)) (arg :: args)

/-- A name with arguments in parentheses, after blanks or nothing, and the fact that they make up. -/
inductive IsShape : List Char → Fact → Prop
  | mk {gap rest : List Char} {name : String} {args : List String} (hGap : ∀ c ∈ gap, Text.isBlank c = true)
      (hName : IsName name) (hArgs : IsArguments rest args) :
      IsShape ('(' :: (gap ++ (name.toList ++ rest) ++ [')'])) ⟨name, args⟩

/-! ## Arguments and words -/

theorem not_parenthesis_of_blank {gap : List Char} (hGap : ∀ c ∈ gap, Text.isBlank c = true) :
    ∀ c ∈ gap, Token.isParenthesis c = false :=
  fun c hMem => Bool.eq_false_iff.mpr fun hMark => Token.not_isBlank_of_isParenthesis hMark (hGap c hMem)

/-- Arguments are set off from what comes before them. -/
theorem IsArguments.isBlank_head {cs : List Char} {args : List String} (hArgs : IsArguments cs args) :
    ∀ c ∈ cs.head?, Text.isBlank c = true := by
  cases hArgs with
  | nil hGap => exact fun c hHead => hGap c (List.mem_of_mem_head? hHead)
  | cons hSome hGap _ _ =>
      rw [List.head?_append_of_ne_nil _ hSome]
      exact fun c hHead => hGap c (List.mem_of_mem_head? hHead)

theorem IsArguments.not_parenthesis {cs : List Char} {args : List String} (hArgs : IsArguments cs args) :
    ∀ c ∈ cs, Token.isParenthesis c = false := by
  induction hArgs with
  | nil hGap => exact not_parenthesis_of_blank hGap
  | cons _ hGap hArg _ ih =>
      simp only [List.forall_mem_append]
      exact ⟨not_parenthesis_of_blank hGap, hArg.not_parenthesis, ih⟩

/-- The words of arguments are the arguments. -/
theorem IsArguments.words_eq {cs : List Char} {args : List String} (hArgs : IsArguments cs args) :
    Text.words cs = args.map String.toList := by
  induction hArgs with
  | @nil gap hGap =>
      have hWords := Text.words_blanks_append hGap []
      rwa [List.append_nil] at hWords
  | cons _ hGap hArg hRest ih =>
      rw [Text.words_blanks_append hGap, Text.words_word_append hArg.nonempty hArg.not_blank hRest.isBlank_head, ih,
        List.map_cons]

/-- A text that is set off is arguments if they are its words. -/
theorem isArguments_of_words {cs : List Char} {args : List String} (hHead : ∀ c ∈ cs.head?, Text.isBlank c = true)
    (hInside : ∀ c ∈ cs, Token.isParenthesis c = false) (hWords : Text.words cs = args.map String.toList) :
    IsArguments cs args := by
  induction args generalizing cs with
  | nil => exact .nil (Text.isBlank_of_words_eq_nil hWords)
  | cons arg args ih =>
      have hArg : IsName arg := IsName.of_mem_words hInside (hWords ▸ List.mem_cons_self)
      obtain ⟨gap, rest, rfl, hGap, hFollow, hMore⟩ := Text.exists_of_words_eq_cons hWords
      have hSome : gap ≠ [] := by
        -- Without a gap the text would start with a character of the argument.
        rintro rfl
        obtain ⟨c, tail, hText, hBlank⟩ := hArg.exists_cons
        have hStart : Text.isBlank c = true := hHead c (by rw [hText]; rfl)
        rw [hStart] at hBlank
        exact absurd hBlank.symm Bool.false_ne_true
      simp only [List.forall_mem_append] at hInside
      exact .cons hSome hGap hArg (ih hFollow hInside.2.2 hMore)

/-- A text is a fact exactly if the names of the fact are the words between its parentheses. -/
theorem isShape_iff {cs : List Char} {fact : Fact} :
    IsShape cs fact ↔
      ∃ inner, cs = '(' :: (inner ++ [')']) ∧ (∀ c ∈ inner, Token.isParenthesis c = false) ∧
        Text.words inner = fact.name.toList :: fact.args.map String.toList := by
  constructor
  · intro hShape
    cases hShape with
    | @mk gap rest name args hGap hName hArgs =>
        refine ⟨gap ++ (name.toList ++ rest), rfl, ?_, ?_⟩
        · simp only [List.forall_mem_append]
          exact ⟨not_parenthesis_of_blank hGap, hName.not_parenthesis, hArgs.not_parenthesis⟩
        · rw [Text.words_blanks_append hGap, Text.words_word_append hName.nonempty hName.not_blank hArgs.isBlank_head,
            hArgs.words_eq]
  · rintro ⟨inner, rfl, hInside, hWords⟩
    have hName : IsName fact.name := IsName.of_mem_words hInside (hWords ▸ List.mem_cons_self)
    obtain ⟨gap, rest, rfl, hGap, hFollow, hMore⟩ := Text.exists_of_words_eq_cons hWords
    simp only [List.forall_mem_append] at hInside
    exact .mk hGap hName (isArguments_of_words hFollow hInside.2.2 hMore)

/-! ## What is read -/

/-- A text has the symbols of a fact exactly if it has its shape. -/
theorem symbols?_eq_names_iff {cs : List Char} {fact : Fact} :
    symbols? cs = some (fact.name.toList :: fact.args.map String.toList) ↔ IsShape (Text.strip cs) fact :=
  symbols?_eq_some_iff.trans isShape_iff.symm

/-- A text is refused because it has not the shape of a fact, or else because of the name of the fact. -/
theorem ofText_eq_error_iff {text : String} {reason : FactError} :
    ofText text = .error reason ↔
      ((∀ fact, ¬ IsShape (Text.strip text.toList) fact) ∧ reason = .notFact text) ∨
        ∃ fact, IsShape (Text.strip text.toList) fact ∧ (fact.name = "=" ∨ isVariable fact.name = true) ∧
          reason = .name fact.name := by
  constructor
  · intro hText
    by_cases hShape : ∃ fact, IsShape (Text.strip text.toList) fact
    · obtain ⟨fact, hShape⟩ := hShape
      rw [ofText_of_symbols (symbols?_eq_names_iff.mpr hShape)] at hText
      split at hText
      · next hRefused => exact .inr ⟨fact, hShape, isRefusedName_iff.mp hRefused, (Except.error.inj hText).symm⟩
      · exact absurd hText (by simp)
    · rw [not_exists] at hShape
      rw [ofText_of_no_symbols fun fact => hShape fact ∘ symbols?_eq_names_iff.mp] at hText
      exact .inl ⟨hShape, (Except.error.inj hText).symm⟩
  · rintro (⟨hNone, rfl⟩ | ⟨fact, hShape, hRefused, rfl⟩)
    · exact ofText_of_no_symbols fun fact => hNone fact ∘ symbols?_eq_names_iff.mp
    · rw [ofText_of_symbols (symbols?_eq_names_iff.mpr hShape), if_pos (isRefusedName_iff.mpr hRefused)]

/-- Keys are canonical.  A text denotes a fact exactly if, stripped, it has the shape of the fact, whose name is no
equality sign and no variable.  The key of a fact that a text denotes denotes the fact again, and so the facts that two
texts denote have equal keys exactly if they are equal. -/
theorem canonical_key (text : String) :
    (∀ fact, ofText text = .ok fact ↔
      IsShape (Text.strip text.toList) fact ∧ fact.name ≠ "=" ∧ isVariable fact.name = false) ∧
    (∀ fact, ofText text = .ok fact → ofText fact.key = .ok fact) ∧
    ∀ other fact otherFact, ofText text = .ok fact → ofText other = .ok otherFact →
      (fact.key = otherFact.key ↔ fact = otherFact) := by
  refine ⟨fun fact => ?_, fun fact hText => (writable_of_ofText hText).ofText_key, ?_⟩
  · rw [ofText_eq_ok_iff, symbols?_eq_names_iff, ← Bool.not_eq_true, isRefusedName_iff, not_or, Bool.not_eq_true]
  · intro other fact otherFact hText hOther
    refine ⟨key_injective (writable_of_ofText hText).spelled (writable_of_ofText hOther).spelled, ?_⟩
    rintro rfl
    rfl

/-- A text with blanks of several kinds wherever some may stand, and one that lacks the blank between two arguments. -/
theorem canonical_key_spaced :
    let text := "\t( robot_at\u00a0\n r2d2\u2003kitchen\u001c) "
    let other := "(robot_at r2d2kitchen)"
    let fact : Fact := ⟨"robot_at", ["r2d2", "kitchen"]⟩
    let otherFact : Fact := ⟨"robot_at", ["r2d2kitchen"]⟩
    ofText text = .ok fact ∧ ofText other = .ok otherFact ∧ fact.key = "(robot_at r2d2 kitchen)" ∧
      ofText fact.key = .ok fact ∧ fact.key ≠ otherFact.key := by
  intro text other fact otherFact
  have hGap {gap : List Char} (hBlank : gap.all Text.isBlank = true) : ∀ c ∈ gap, Text.isBlank c = true :=
    List.all_eq_true.mp hBlank
  have hName : IsName "robot_at" := by decide +kernel
  have hText : ofText text = .ok fact := by
    have hStrip : Text.strip text.toList = '(' :: ([' '] ++ ("robot_at".toList ++ (['\u00a0', '\n', ' '] ++
        ("r2d2".toList ++ (['\u2003'] ++ ("kitchen".toList ++ ['\u001c']))))) ++ [')']) := by decide +kernel
    have hArgs : IsArguments (['\u00a0', '\n', ' '] ++
        ("r2d2".toList ++ (['\u2003'] ++ ("kitchen".toList ++ ['\u001c'])))) ["r2d2", "kitchen"] :=
      .cons (by decide) (hGap (by decide)) (by decide +kernel)
        (.cons (by decide) (hGap (by decide)) (by decide +kernel) (.nil (hGap (by decide))))
    refine ((canonical_key text).1 fact).mpr ⟨?_, by decide, by decide⟩
    rw [hStrip]
    exact .mk (hGap (by decide)) hName hArgs
  have hOther : ofText other = .ok otherFact := by
    have hStrip : Text.strip other.toList =
        '(' :: ([] ++ ("robot_at".toList ++ ([' '] ++ ("r2d2kitchen".toList ++ []))) ++ [')']) := by decide +kernel
    have hArgs : IsArguments ([' '] ++ ("r2d2kitchen".toList ++ [])) ["r2d2kitchen"] :=
      .cons (by decide) (hGap (by decide)) (by decide +kernel) (.nil (hGap rfl))
    refine ((canonical_key other).1 otherFact).mpr ⟨?_, by decide, by decide⟩
    rw [hStrip]
    exact .mk (hGap rfl) hName hArgs
  obtain ⟨-, hAgain, hKeys⟩ := canonical_key text
  refine ⟨hText, hOther, by decide +kernel, hAgain fact hText, fun hSame => ?_⟩
  exact absurd ((hKeys other fact otherFact hText hOther).mp hSame) (by decide)

end Fact
end PlanLogic
