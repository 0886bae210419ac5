import PlanLogic.Evaluation.OnSnapshot
import PlanLogic.Proofs.Documents.SingleLines
import PlanLogic.Proofs.Evaluation.Compiled

/-!
# Facts in conditions and in states

A condition is read token by token, and a state line by line.  On a text without comments the two agree: outside
of parentheses the tokens of a text are its words, and a parenthesis separates words.  So a text that denotes an atom
describes the state in which just the fact of that atom holds, and a text that denotes a function is the head of an
assignment whose value the function has in the state of that assignment.
-/

namespace PlanLogic

/-! ## Texts without comments -/

namespace Token

/-- A scan that is not inside a comment. -/
def Mode.IsOpen : Mode → Prop
  | .comment => False
  | _ => True

theorem Mode.IsOpen.step {mode : Mode} (hMode : mode.IsOpen) {c : Char} (hComment : c ≠ ';') (position : Nat) :
    (mode.step position c).2.IsOpen := by
  cases mode with
  | comment => exact absurd hMode id
  | gap =>
      rw [Mode.step, if_neg hComment]
      split
      · trivial
      split
      · trivial
      · trivial
  | symbol start reversed =>
      rw [Mode.step]
      split
      · trivial
      split
      · trivial
      · trivial

/-- Without comments a text can be cut where symbols end. -/
theorem map_text_scan_append {cs rest : List Char} (hComment : ';' ∉ cs) (hRest : AtBoundary rest) {mode : Mode}
    (hMode : mode.IsOpen) (position : Nat) :
    (scan mode position (cs ++ rest)).map Token.text = (scan mode position cs).map Token.text ++ texts rest := by
  induction cs generalizing mode position with
  | nil =>
      cases mode with
      | comment => exact absurd hMode id
      | gap => exact map_text_scan_gap position rest
      | symbol start reversed =>
          rw [List.nil_append, scan_boundary hRest, List.map_cons, map_text_scan_gap]
          rfl
  | cons c cs ih =>
      rw [List.mem_cons, not_or] at hComment
      rw [List.cons_append, scan_cons, scan_cons, List.map_append, List.map_append, List.append_assoc,
        ih hComment.2 (hMode.step (Ne.symm hComment.1) position)]

/-- Without comments a parenthesis stands between the tokens before it and those after it. -/
theorem texts_append_parenthesis {before : List Char} (hComment : ';' ∉ before) {c : Char}
    (hParenthesis : isParenthesis c = true) (after : List Char) :
    texts (before ++ c :: after) = texts before ++ String.ofList [c] :: texts after := by
  have hBoundary : AtBoundary (c :: after) := by
    show isSymbolChar c = false
    rw [isSymbolChar, hParenthesis, Bool.not_true, Bool.and_false]
  have hOpen : Mode.gap.IsOpen := trivial
  rw [texts, map_text_scan_append hComment hBoundary hOpen, texts_parenthesis hParenthesis]
  rfl

/-- Without comments and parentheses a scan finds words. -/
theorem map_text_scan_eq_words {cs : List Char} (hComment : ';' ∉ cs) (hInside : ∀ c ∈ cs, isParenthesis c = false)
    (position : Nat) :
    (scan .gap position cs).map Token.text = (Text.wordsFrom [] cs).map String.ofList ∧
      ∀ start word, word ≠ [] →
        (scan (.symbol start word) position cs).map Token.text = (Text.wordsFrom word cs).map String.ofList := by
  induction cs generalizing position with
  | nil =>
      refine ⟨rfl, fun start word hWord => ?_⟩
      rw [Text.wordsFrom, if_neg hWord]
      rfl
  | cons c cs ih =>
      rw [List.mem_cons, not_or] at hComment
      rw [List.forall_mem_cons] at hInside
      obtain ⟨hGap, hSymbol⟩ := ih hComment.2 hInside.2 (position + 1)
      cases hBlank : Text.isBlank c with
      | true =>
          refine ⟨?_, fun start word hWord => ?_⟩
          · rw [scan, Text.wordsFrom, if_pos hBlank, if_pos hBlank, if_pos rfl, hGap]
          · rw [scan, Text.wordsFrom, if_pos hBlank, if_pos hBlank, if_neg hWord, List.map_cons, List.map_cons, hGap]
      | false =>
          have hSolid : ¬ Text.isBlank c = true := by simp [hBlank]
          have hOther : ¬ isParenthesis c = true := by simp [hInside.1]
          refine ⟨?_, fun start word _ => ?_⟩
          · rw [scan, Text.wordsFrom, if_neg hSolid, if_neg hSolid, if_neg hOther, if_neg (Ne.symm hComment.1),
              hSymbol position [c] (List.cons_ne_nil _ _)]
          · rw [scan, Text.wordsFrom, if_neg hSolid, if_neg hSolid, if_neg hOther,
              hSymbol start (c :: word) (List.cons_ne_nil _ _)]

/-- Without comments and parentheses the tokens of a text are its words. -/
theorem texts_eq_words {cs : List Char} (hComment : ';' ∉ cs) (hInside : ∀ c ∈ cs, isParenthesis c = false) :
    texts cs = (Text.words cs).map String.ofList :=
  (map_text_scan_eq_words hComment hInside 0).1

/-! ## One pair of parentheses -/

theorem not_isParenthesisText_of_mem_words {cs : List Char} (hInside : ∀ c ∈ cs, isParenthesis c = false) :
    ∀ word ∈ (Text.words cs).map String.ofList, isParenthesisText word = false := by
  intro word hMem
  obtain ⟨found, hFound, rfl⟩ := List.mem_map.mp hMem
  obtain ⟨-, hChars⟩ := Text.mem_words hFound
  have hName {c : Char} (hChar : isParenthesis c = true) : String.ofList found ≠ String.ofList [c] := by
    intro hSame
    obtain rfl := String.ofList_injective hSame
    rw [hInside c (hChars c List.mem_cons_self).2] at hChar
    exact Bool.false_ne_true hChar
  rw [isParenthesisText, Bool.or_eq_false_iff, beq_eq_false_iff_ne, beq_eq_false_iff_ne]
  exact ⟨hName (c := '(') (by decide), hName (c := ')') (by decide)⟩

/-- Two lists of texts with the same first parenthesis are cut there in the same way. -/
theorem append_parenthesis_inj {words others rest left : List String} {mark other : String}
    (hWords : ∀ word ∈ words, isParenthesisText word = false) (hMark : isParenthesisText mark = true)
    (hOthers : ∀ word ∈ others, isParenthesisText word = false) (hOther : isParenthesisText other = true)
    (hSame : words ++ mark :: rest = others ++ other :: left) : words = others ∧ mark = other ∧ rest = left := by
  have hFront {front back : List String} {next : String} (hFront : ∀ word ∈ front, isParenthesisText word = false)
      (hNext : isParenthesisText next = true) :
      (front ++ next :: back).takeWhile (fun word => !isParenthesisText word) = front := by
    rw [List.takeWhile_append_of_pos fun word hMem => by rw [hFront word hMem]; rfl,
      List.takeWhile_cons_of_neg (by simp [hNext]), List.append_nil]
  have hTake := congrArg (List.takeWhile fun word => !isParenthesisText word) hSame
  rw [hFront hWords hMark, hFront hOthers hOther] at hTake
  obtain rfl := hTake
  exact ⟨rfl, List.cons.inj (List.append_cancel_left hSame)⟩

theorem isParenthesisText_singleton {c : Char} (hParenthesis : isParenthesis c = true) :
    isParenthesisText (String.ofList [c]) = true := by
  rcases isParenthesis_iff.mp hParenthesis with rfl | rfl
  · decide
  · decide

/-- The first parenthesis among the tokens of a text without comments is the first one in the text. -/
theorem exists_parenthesis {cs : List Char} (hComment : ';' ∉ cs) {words rest : List String} {mark : String}
    (hTexts : texts cs = words ++ mark :: rest) (hWords : ∀ word ∈ words, isParenthesisText word = false)
    (hMark : isParenthesisText mark = true) :
    ∃ before c after, cs = before ++ c :: after ∧ (∀ other ∈ before, isParenthesis other = false) ∧
      (Text.words before).map String.ofList = words ∧ String.ofList [c] = mark ∧ texts after = rest := by
  have hSplit := List.takeWhile_append_dropWhile (p := fun c => !isParenthesis c) (l := cs)
  have hBefore : ∀ c ∈ cs.takeWhile (fun c => !isParenthesis c), isParenthesis c = false := fun c hMem => by
    simpa using List.mem_takeWhile_imp hMem
  have hFirst := List.head?_dropWhile_not (fun c => !isParenthesis c) cs
  generalize cs.takeWhile (fun c => !isParenthesis c) = before at hSplit hBefore
  generalize cs.dropWhile (fun c => !isParenthesis c) = back at hSplit hFirst
  subst hSplit
  rw [List.mem_append, not_or] at hComment
  have hTokens := texts_eq_words hComment.1 hBefore
  have hPlain := not_isParenthesisText_of_mem_words hBefore
  cases back with
  | nil =>
      -- A text without parentheses has none among its tokens.
      rw [List.append_nil, hTokens] at hTexts
      rw [hPlain mark (hTexts ▸ List.mem_append_right words List.mem_cons_self)] at hMark
      exact absurd hMark Bool.false_ne_true
  | cons c after =>
      have hParenthesis : isParenthesis c = true := by simpa using hFirst
      rw [texts_append_parenthesis hComment.1 hParenthesis, hTokens] at hTexts
      obtain ⟨hSame, hHere, hRest⟩ :=
        append_parenthesis_inj hPlain (isParenthesisText_singleton hParenthesis) hWords hMark hTexts
      exact ⟨before, c, after, rfl, hBefore, hSame, hHere, hRest⟩

/-- A text without comments that has no tokens is blank. -/
theorem isBlank_of_texts_eq_nil {cs : List Char} (hComment : ';' ∉ cs) (hTexts : texts cs = []) :
    ∀ c ∈ cs, Text.isBlank c = true := by
  have hInside : ∀ c ∈ cs, isParenthesis c = false := by
    intro c hMem
    cases hParenthesis : isParenthesis c with
    | false => rfl
    | true =>
        obtain ⟨before, after, rfl⟩ := List.append_of_mem hMem
        rw [texts_append_parenthesis (fun hBefore => hComment (List.mem_append_left _ hBefore)) hParenthesis] at hTexts
        exact absurd hTexts (List.append_ne_nil_of_right_ne_nil _ (List.cons_ne_nil _ _))
  rw [texts_eq_words hComment hInside, List.map_eq_nil_iff] at hTexts
  exact Text.isBlank_of_words_eq_nil hTexts

/-- A text whose tokens are one pair of parentheses with symbols inside. -/
theorem exists_enclosed {cs : List Char} (hComment : ';' ∉ cs) {words : List String}
    (hTexts : texts cs = "(" :: (words ++ [")"])) (hWords : ∀ word ∈ words, isParenthesisText word = false) :
    ∃ front inner back, cs = front ++ ('(' :: (inner ++ [')']) ++ back) ∧
      (∀ c ∈ front, Text.isBlank c = true) ∧ (∀ c ∈ back, Text.isBlank c = true) ∧
      (∀ c ∈ inner, isParenthesis c = false) ∧ Text.words inner = words.map String.toList := by
  obtain ⟨front, c, others, rfl, -, hFront, hOpen, hOthers⟩ :=
    exists_parenthesis hComment (List.nil_append _ ▸ hTexts) (fun _ hNone => absurd hNone List.not_mem_nil) (by decide)
  obtain rfl : c = '(' := List.singleton_inj.mp (String.ofList_injective hOpen)
  simp only [List.mem_append, List.mem_cons, not_or] at hComment
  obtain ⟨inner, c, back, rfl, hInner, hInside, hClose, hBack⟩ :=
    exists_parenthesis hComment.2.2 hOthers hWords (by decide)
  obtain rfl : c = ')' := List.singleton_inj.mp (String.ofList_injective hClose)
  simp only [List.mem_append, List.mem_cons, not_or] at hComment
  refine ⟨front, inner, back, by simp, ?_, isBlank_of_texts_eq_nil hComment.2.2.2.2 hBack, hInner, ?_⟩
  · exact Text.isBlank_of_words_eq_nil (List.map_eq_nil_iff.mp hFront)
  · rw [← hInside, List.map_map]
    exact (List.map_id'' (fun _ => String.toList_ofList) _).symm

end Token

/-! ## Readers that agree -/

/-- The fact that an atom is about when no objects are put in for variables. -/
def Atom.fact (head : Atom) : Fact :=
  ⟨head.name, head.args.map (Term.lowered [])⟩

/-- The node that an atom becomes names the fact of the atom. -/
theorem Atom.fact_node (head : Atom) (kind : NodeKind) :
    Node.fact { kind := kind, name := head.name, parameters := head.parameters [] } = head.fact := by
  rw [Node.fact, Node.parameterNames, Atom.parameters, List.map_map, Atom.fact]
  rfl

/-- Without variables the arguments of an atom are their words. -/
theorem ArgumentsOf.lowered_empty {words : List String} {args : List Term} (hArgs : ArgumentsOf .empty words args) :
    args.map (Term.lowered []) = words := by
  induction hArgs with
  | nil => rfl
  | cons hArg _ ih =>
      cases hArg with
      | slot _ hSlot => exact absurd hSlot (Option.some_ne_none _).symm
      | object _ => rw [List.map_cons, ih, Term.lowered]

theorem ArgumentsOf.not_isParenthesisText {words : List String} {args : List Term}
    (hArgs : ArgumentsOf .empty words args) : ∀ word ∈ words, isParenthesisText word = false := by
  induction hArgs with
  | nil => exact fun _ hMem => absurd hMem List.not_mem_nil
  | cons hArg _ ih =>
      cases hArg with
      | slot _ hSlot => exact absurd hSlot (Option.some_ne_none _).symm
      | object hWord => exact List.forall_mem_cons.mpr ⟨hWord.noParenthesis, ih⟩

/-- A text that is a name with arguments in parentheses, and what stands around the parentheses. -/
structure Fact.Surrounded (fact : Fact) (cs front inner back : List Char) : Prop where
  shape : cs = front ++ ('(' :: (inner ++ [')']) ++ back)
  blankFront : ∀ c ∈ front, Text.isBlank c = true
  blankBack : ∀ c ∈ back, Text.isBlank c = true
  noParenthesis : ∀ c ∈ inner, Token.isParenthesis c = false
  words : Text.words inner = fact.name.toList :: fact.args.map String.toList

namespace Fact

variable {fact : Fact} {cs front inner back : List Char}

/-- The tokens of a text without comments show that it is a name with arguments in parentheses. -/
theorem exists_surrounded (hComment : ';' ∉ cs) {name : String} {words : List String} {args : List Term}
    (hName : IsWord name) (hArgs : ArgumentsOf .empty words args)
    (hTexts : Token.texts cs = "(" :: name :: (words ++ [")"])) :
    ∃ front inner back, (Atom.fact ⟨name, args⟩).Surrounded cs front inner back := by
  have hWords : ∀ word ∈ name :: words, isParenthesisText word = false :=
    List.forall_mem_cons.mpr ⟨hName.noParenthesis, hArgs.not_isParenthesisText⟩
  obtain ⟨front, inner, back, hShape, hFront, hBack, hInner, hInside⟩ :=
    Token.exists_enclosed hComment hTexts hWords
  refine ⟨front, inner, back, hShape, hFront, hBack, hInner, ?_⟩
  rw [hInside, Atom.fact, hArgs.lowered_empty, List.map_cons]

/-- Such a text denotes the fact, if the name is allowed. -/
theorem Surrounded.ofText (hText : fact.Surrounded cs front inner back)
    (hAllowed : isRefusedName fact.name.toList = false) : ofText (String.ofList cs) = .ok fact := by
  rw [ofText_eq_ok_iff, String.toList_ofList, symbols?_eq_some_iff]
  refine ⟨⟨inner, ?_, hText.noParenthesis, hText.words⟩, hAllowed⟩
  rw [hText.shape, Text.strip_surrounded hText.blankFront hText.blankBack, Text.strip_enclosed]

/-- Without what stands around the parentheses it still is such a text. -/
theorem Surrounded.core (hText : fact.Surrounded cs front inner back) :
    fact.Surrounded ('(' :: (inner ++ [')'])) [] inner [] where
  shape := (List.append_nil _).symm
  blankFront _ hMem := absurd hMem List.not_mem_nil
  blankBack _ hMem := absurd hMem List.not_mem_nil
  noParenthesis := hText.noParenthesis
  words := hText.words

end Fact

namespace Snapshot

/-- An atom holds in a state if its fact is there. -/
theorem check_atom (head : Atom) (state : Snapshot) :
    (check (Tree.ofCondition (some (.atom head)) []) 0 : Run Bool) (.start state) =
      (state.holds head.fact, .start state) := by
  show ((false != state.holds (Node.fact _) : Bool), Observed.start state) = _
  rw [head.fact_node, Bool.false_bne]

/-- A function has the value of its head. -/
theorem evaluate_function (head : Atom) (state : Snapshot) (commit negated : Bool) {value : Float}
    (hValue : state.value? head.fact.key = some value) :
    (evaluate commit (Tree.empty.pushExpression (.function head) []) 0 negated : Run Outcome) (.start state) =
      (.computed value, .start state) := by
  rw [← head.fact_node .function] at hValue
  show (Evaluation.function (Node.fact _).key : Run Outcome) (.start state) = _
  simp only [Evaluation.function, bind, StateT.bind, FactBase.value?, Run.ask, Observed.start, hValue]
  rfl

/-- The state that a text describes in which just an atom is said. -/
theorem ofText_of_atom {text : String} (hLine : '\n' ∉ text.toList) (hComment : ';' ∉ text.toList) {head : Atom}
    (hText : Condition.ofText text .empty = .ok (some (.atom head))) : ofText text = .ok ⟨[head.fact], []⟩ := by
  have hDenotes := Condition.ofText_eq_ok_iff.mp hText
  generalize hTexts : (Token.ofText text).map Token.text = tokens at hDenotes
  cases hDenotes with
  | atom hName hWord hArgs =>
      obtain ⟨front, inner, back, hSurrounded⟩ := Fact.exists_surrounded hComment hWord hArgs hTexts
      have hFact := hSurrounded.ofText (isRefusedName_of_not_isKeyword hName hWord)
      rw [String.ofList_toList] at hFact
      exact ofText_of_fact hLine hFact

/-- The state that a text describes in which a function is assigned a value. -/
theorem ofText_of_function {text : String} (hLine : '\n' ∉ text.toList) (hComment : ';' ∉ text.toList) {head : Atom}
    (hText : Condition.readExpression .empty (Token.ofText text) = .ok (.function head) []) (hName : head.name ≠ "=")
    {value : String} (hValue : ∀ c ∈ value.toList, Token.isSymbolChar c = true) {number : Float}
    (hNumber : Decimal.numeral? value.toList = some number) :
    ofText ("(= " ++ text ++ " " ++ value ++ ")") = .ok ⟨[], [⟨head.fact, number⟩]⟩ := by
  have hIsName : IsName value := by
    refine ⟨fun hNone => ?_, hValue⟩
    rw [hNone] at hNumber
    exact absurd hNumber (Option.some_ne_none _).symm
  have hTogether : ("(= " ++ text ++ " " ++ value ++ ")").toList =
      '(' :: (('=' :: ' ' :: (text.toList ++ ' ' :: value.toList)) ++ [')']) := by simp
  have hWhole : '\n' ∉ ("(= " ++ text ++ " " ++ value ++ ")").toList := by
    have hFeed : '\n' ∉ value.toList := fun hMem => absurd (hIsName.not_blank '\n' hMem) (by decide)
    simp [hTogether, hLine, hFeed]
  have hDenotes := Reading.readExpression_eq_ok_iff.mp hText
  generalize hTexts : (Token.ofText text).map Token.text = tokens at hDenotes
  cases hDenotes with
  | function hWord _ hArgs =>
      obtain ⟨front, inner, back, hSurrounded⟩ := Fact.exists_surrounded hComment hWord hArgs hTexts
      have hFact := hSurrounded.core.ofText (isRefusedName_of_isWord hWord hName)
      refine (ofText_singleton_iff hWhole).mpr ⟨Assignment.isMeant_blank hTogether, ?_⟩
      rw [hSurrounded.shape] at hTogether
      exact Assignment.ofText_spaced hSurrounded.blankFront hSurrounded.noParenthesis hSurrounded.blankBack hIsName
        hTogether hFact hNumber

/-- The same text means the same fact in a condition and in a state.  A text without line feeds and comments that is an
atom describes the state of one fact, in which the atom holds until the fact is removed.  One that is a function other
than an equality sign can be assigned every number, whatever its text, and that is its value then. -/
theorem ofText_agrees_with_condition {text : String} (hLine : '\n' ∉ text.toList) (hComment : ';' ∉ text.toList) :
    (∀ head, Condition.ofText text .empty = .ok (some (.atom head)) →
      let tree := Tree.ofCondition (some (.atom head)) []
      ∃ fact, ofText text = .ok ⟨[fact], []⟩ ∧
        (check tree 0 : Run Bool) (.start ⟨[fact], []⟩) = (true, .start ⟨[fact], []⟩) ∧
        (check tree 0 : Run Bool) (.start (remove ⟨[fact], []⟩ fact)) = (false, .start (remove ⟨[fact], []⟩ fact))) ∧
    ∀ head value number, Condition.readExpression .empty (Token.ofText text) = .ok (.function head) [] →
      head.name ≠ "=" → (∀ c ∈ value.toList, Token.isSymbolChar c = true) →
      Decimal.numeral? value.toList = some number →
      let tree := Tree.empty.pushExpression (.function head) []
      ∃ state, ofText ("(= " ++ text ++ " " ++ value ++ ")") = .ok state ∧ ∀ commit negated,
        (evaluate commit tree 0 negated : Run Outcome) (.start state) = (⟨true, false, number⟩, .start state) := by
  constructor
  · intro head hText tree
    refine ⟨head.fact, ofText_of_atom hLine hComment hText, ?_, ?_⟩
    · rw [check_atom, holds, List.contains_iff_mem.mpr (List.mem_singleton.mpr rfl)]
    · have hGone : remove ⟨[head.fact], []⟩ head.fact = ⟨[], []⟩ := by
        rw [remove, List.erase_cons_head]
      rw [hGone, check_atom]
      rfl
  · intro head value number hText hName hValue hNumber tree
    refine ⟨⟨[], [⟨head.fact, number⟩]⟩, ofText_of_function hLine hComment hText hName hValue hNumber, ?_⟩
    intro commit negated
    exact evaluate_function head _ commit negated (by simp [value?])

/-- A head with blanks of several kinds, which can be read both as an atom and as a function. -/
theorem ofText_agrees_with_condition_spaced :
    let text := "\t( Fuel\u00a0 a\u2003) "
    let head : Atom := ⟨"Fuel", [.object "a"]⟩
    Condition.ofText text .empty = .ok (some (.atom head)) ∧
      Condition.readExpression .empty (Token.ofText text) = .ok (.function head) [] ∧
      (∃ fact, ofText text = .ok ⟨[fact], []⟩ ∧
        ((check (Tree.ofCondition (some (.atom head)) []) 0 : Run Bool) (.start ⟨[fact], []⟩)).1 = true) ∧
      ∃ state, ofText ("(= " ++ text ++ " -0.5e1)") = .ok state ∧
        ((evaluate false (Tree.empty.pushExpression (.function head) []) 0 true : Run Outcome) (.start state)).1 =
          ⟨true, false, -5⟩ := by
  intro text head
  have hWords : (Token.ofText text).map Token.text = ["(", "Fuel", "a", ")"] := by decide +kernel
  have hLine : '\n' ∉ text.toList := by decide +kernel
  have hComment : ';' ∉ text.toList := by decide +kernel
  have hArgs : ArgumentsOf .empty ["a"] head.args := .cons (.object ⟨by decide, by decide⟩) .nil
  have hAtom : Condition.ofText text .empty = .ok (some (.atom head)) := by
    rw [Condition.ofText_eq_ok_iff, hWords]
    exact .atom (by decide +kernel) ⟨by decide, by decide⟩ hArgs
  have hFunction : Condition.readExpression .empty (Token.ofText text) = .ok (.function head) [] := by
    rw [Reading.readExpression_eq_ok_iff, hWords]
    exact .function ⟨by decide, by decide⟩ (by decide) hArgs
  have hNumber : Decimal.numeral? "-0.5e1".toList = some (-5) := by decide +kernel
  have hChars : "-0.5e1".toList.all Token.isSymbolChar = true := by decide +kernel
  obtain ⟨hFact, hValue⟩ := ofText_agrees_with_condition hLine hComment
  obtain ⟨fact, hState, hTrue, -⟩ := hFact head hAtom
  obtain ⟨other, hOther, hEvaluate⟩ :=
    hValue head "-0.5e1" (-5) hFunction (by decide) (List.all_eq_true.mp hChars) hNumber
  refine ⟨hAtom, hFunction, ⟨fact, hState, by rw [hTrue]⟩, other, hOther, ?_⟩
  rw [hEvaluate false true]

end Snapshot
end PlanLogic
