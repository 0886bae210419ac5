import PlanLogic.Proofs.Reading.Scanning
import Mathlib.Data.List.Forall2

/-!
# Lexemes

The texts of tokens do not depend on their places, so a scan can be followed from piece to piece: blanks are
skipped, a parenthesis is a token by itself, and a symbol is a token if it ends before a blank, a
parenthesis or the end of the text.  Conversely, every token is of one of these two kinds.
-/

namespace PlanLogic
namespace Token

/-- The texts of the tokens of a list of characters. -/
def texts (cs : List Char) : List String :=
  (scan .gap 0 cs).map Token.text

/-- A symbol: some characters of symbols, of which the first one opens no comment. -/
structure IsSymbol (text : String) : Prop where
  nonempty : text.toList ≠ []
  chars : ∀ c ∈ text.toList, isSymbolChar c = true
  noComment : text.toList.head? ≠ some ';'

/-- What the text of a token can be. -/
inductive IsLexeme (text : String) : Prop
  | opening (hText : text = "(")
  | closing (hText : text = ")")
  | symbol (hSymbol : IsSymbol text)

/-- A place where a symbol ends. -/
def AtBoundary : List Char → Prop
  | [] => True
  | c :: _ => isSymbolChar c = false

theorem atBoundary_iff {cs : List Char} : AtBoundary cs ↔ ∀ c ∈ cs.head?, isSymbolChar c = false := by
  cases cs with
  | nil => exact ⟨fun _ _ hNone => absurd hNone (Option.not_mem_none _), fun _ => trivial⟩
  | cons c cs => exact ⟨fun hEnd _ hFirst => Option.some.inj hFirst ▸ hEnd, fun hAll => hAll c rfl⟩

theorem isSymbolChar_iff {c : Char} :
    isSymbolChar c = true ↔ Text.isBlank c = false ∧ isParenthesis c = false := by
  rw [isSymbolChar, Bool.and_eq_true, Bool.not_eq_true', Bool.not_eq_true']

theorem isParenthesis_iff {c : Char} : isParenthesis c = true ↔ c = '(' ∨ c = ')' := by
  rw [isParenthesis, Bool.or_eq_true, beq_iff_eq, beq_iff_eq]

theorem not_isBlank_of_isParenthesis {c : Char} (hParenthesis : isParenthesis c = true) :
    ¬ Text.isBlank c = true := by
  rcases isParenthesis_iff.mp hParenthesis with rfl | rfl
  · decide
  · decide

theorem isSymbol_of_all {text : String} (hSome : text.toList ≠ [])
    (hChars : text.toList.all isSymbolChar = true)
    (hComment : text.toList.head? ≠ some ';') : IsSymbol text :=
  ⟨hSome, List.all_eq_true.mp hChars, hComment⟩

/-! ## Places do not matter -/

/-- Two modes differ at most in the place where a symbol starts. -/
def Mode.Alike : Mode → Mode → Prop
  | .gap, .gap => True
  | .comment, .comment => True
  | .symbol _ reversed, .symbol _ other => reversed = other
  | _, _ => False

theorem Mode.Alike.refl (mode : Mode) : mode.Alike mode := by
  cases mode with
  | gap => trivial
  | comment => trivial
  | symbol start reversed => rfl

theorem Mode.Alike.finish {mode other : Mode} (hAlike : mode.Alike other) :
    mode.finish.map Token.text = other.finish.map Token.text := by
  cases mode <;> cases other <;> try contradiction
  · rfl
  · rfl
  · obtain rfl := hAlike
    rfl

theorem Mode.Alike.step {mode other : Mode} (hAlike : mode.Alike other) (position place : Nat) (c : Char) :
    (mode.step position c).1.map Token.text = (other.step place c).1.map Token.text ∧
      (mode.step position c).2.Alike (other.step place c).2 := by
  cases mode <;> cases other <;> try contradiction
  · rw [Mode.step, Mode.step]
    split
    · exact ⟨rfl, trivial⟩
    split
    · exact ⟨rfl, trivial⟩
    split
    · exact ⟨rfl, trivial⟩
    · exact ⟨rfl, rfl⟩
  · exact ⟨rfl, .refl _⟩
  · obtain rfl := hAlike
    rw [Mode.step, Mode.step]
    split
    · exact ⟨rfl, trivial⟩
    split
    · exact ⟨rfl, trivial⟩
    · exact ⟨rfl, rfl⟩

theorem map_text_scan {mode other : Mode} (hAlike : mode.Alike other) (position place : Nat) (cs : List Char) :
    (scan mode position cs).map Token.text = (scan other place cs).map Token.text := by
  induction cs generalizing mode other position place with
  | nil => exact hAlike.finish
  | cons c cs ih =>
      obtain ⟨hNow, hNext⟩ := hAlike.step position place c
      rw [scan_cons, scan_cons, List.map_append, List.map_append, hNow, ih hNext]

theorem map_text_scan_gap (position : Nat) (cs : List Char) :
    (scan .gap position cs).map Token.text = texts cs :=
  map_text_scan (.refl .gap) position 0 cs

/-! ## Pieces of a text -/

@[simp] theorem texts_nil : texts [] = [] :=
  rfl

theorem texts_blank {c : Char} (hBlank : Text.isBlank c = true) (cs : List Char) :
    texts (c :: cs) = texts cs := by
  rw [texts, scan, if_pos hBlank, map_text_scan_gap]

@[simp] theorem texts_space (cs : List Char) : texts (' ' :: cs) = texts cs :=
  texts_blank (by decide) cs

@[simp] theorem texts_lineFeed (cs : List Char) : texts ('\n' :: cs) = texts cs :=
  texts_blank (by decide) cs

@[simp] theorem texts_tabs (count : Nat) (cs : List Char) :
    texts (List.replicate count '\t' ++ cs) = texts cs := by
  induction count with
  | zero => rfl
  | succ count ih => rw [List.replicate_succ, List.cons_append, texts_blank (by decide), ih]

theorem texts_parenthesis {c : Char} (hChar : isParenthesis c = true) (cs : List Char) :
    texts (c :: cs) = String.ofList [c] :: texts cs := by
  rw [texts, scan, if_neg (not_isBlank_of_isParenthesis hChar), if_pos hChar, List.map_cons, map_text_scan_gap]

@[simp] theorem texts_opening (cs : List Char) : texts ('(' :: cs) = "(" :: texts cs :=
  texts_parenthesis (by decide) cs

@[simp] theorem texts_closing (cs : List Char) : texts (')' :: cs) = ")" :: texts cs :=
  texts_parenthesis (by decide) cs

/-- At a boundary the symbol that is being read is complete. -/
theorem scan_boundary {rest : List Char} (hRest : AtBoundary rest) (start position : Nat) (reversed : List Char) :
    scan (.symbol start reversed) position rest =
      ⟨String.ofList reversed.reverse, start⟩ :: scan .gap position rest := by
  cases rest with
  | nil => rfl
  | cons c rest =>
      rw [scan, scan]
      split
      · rfl
      next hBlank =>
      have hParenthesis : isParenthesis c = true := by
        cases hChar : isParenthesis c with
        | true => rfl
        | false =>
            have hSymbol := isSymbolChar_iff.mpr ⟨by simpa using hBlank, hChar⟩
            rw [AtBoundary, hSymbol] at hRest
            exact Bool.noConfusion hRest
      rw [if_pos hParenthesis, if_pos hParenthesis]

theorem scan_symbolChars {cs rest : List Char} (hChars : ∀ c ∈ cs, isSymbolChar c = true) (hRest : AtBoundary rest)
    (start position : Nat) (reversed : List Char) :
    scan (.symbol start reversed) position (cs ++ rest) =
      ⟨String.ofList (reversed.reverse ++ cs), start⟩ :: scan .gap (position + cs.length) rest := by
  induction cs generalizing reversed position with
  | nil =>
      rw [List.append_nil]
      exact scan_boundary hRest start position reversed
  | cons c cs ih =>
      obtain ⟨hBlank, hParenthesis⟩ := isSymbolChar_iff.mp (hChars c List.mem_cons_self)
      rw [List.cons_append, scan, if_neg (by simp [hBlank]), if_neg (by simp [hParenthesis]),
        ih fun other hMem => hChars other (List.mem_cons_of_mem c hMem), List.reverse_cons, List.append_assoc,
        List.length_cons, Nat.add_right_comm, Nat.add_assoc]
      rfl

/-- A symbol before a boundary is a token at its place. -/
theorem scan_symbol {text : String} (hSymbol : IsSymbol text) {rest : List Char} (hRest : AtBoundary rest)
    (position : Nat) :
    scan .gap position (text.toList ++ rest) =
      ⟨text, position⟩ :: scan .gap (position + text.toList.length) rest := by
  obtain ⟨hSome, hChars, hComment⟩ := hSymbol
  have hText : String.ofList text.toList = text := String.ofList_toList
  generalize text.toList = cs at *
  cases cs with
  | nil => exact absurd rfl hSome
  | cons c cs =>
      obtain ⟨hBlank, hParenthesis⟩ := isSymbolChar_iff.mp (hChars c List.mem_cons_self)
      have hNoComment : c ≠ ';' := by simpa using hComment
      rw [List.cons_append, scan, if_neg (by simp [hBlank]), if_neg (by simp [hParenthesis]), if_neg hNoComment,
        scan_symbolChars (fun other hMem => hChars other (List.mem_cons_of_mem c hMem)) hRest, List.length_cons,
        Nat.add_right_comm, Nat.add_assoc, ← hText]
      rfl

/-- A symbol before a boundary is a token. -/
theorem texts_symbol {text : String} (hSymbol : IsSymbol text) {rest : List Char} (hRest : AtBoundary rest) :
    texts (text.toList ++ rest) = text :: texts rest := by
  rw [texts, scan_symbol hSymbol hRest, List.map_cons, map_text_scan_gap]

@[simp] theorem atBoundary_space (cs : List Char) : AtBoundary (' ' :: cs) := by
  show isSymbolChar ' ' = false
  decide

@[simp] theorem atBoundary_lineFeed (cs : List Char) : AtBoundary ('\n' :: cs) := by
  show isSymbolChar '\n' = false
  decide

@[simp] theorem atBoundary_closing (cs : List Char) : AtBoundary (')' :: cs) := by
  show isSymbolChar ')' = false
  decide

/-- Before a place where symbols end, a text has certain tokens. -/
def Spells (text : String) (words : List String) : Prop :=
  ∀ rest, AtBoundary rest → texts (text.toList ++ rest) = words ++ texts rest

/-- All tokens of a text. -/
theorem Spells.map_text_ofText {text : String} {words : List String} (hSpells : Spells text words) :
    (ofText text).map Token.text = words := by
  have hAll := hSpells [] trivial
  rwa [List.append_nil, texts_nil, List.append_nil] at hAll

/-- Symbols with a space before each. -/
theorem spells_spaced {words : List String} (hSymbols : ∀ word ∈ words, IsSymbol word) {rest : List Char}
    (hRest : AtBoundary rest) :
    AtBoundary ((String.join (words.map (" " ++ ·))).toList ++ rest) ∧
      texts ((String.join (words.map (" " ++ ·))).toList ++ rest) = words ++ texts rest := by
  induction words with
  | nil => exact ⟨hRest, rfl⟩
  | cons word words ih =>
      obtain ⟨hBoundary, hTexts⟩ := ih fun other hMem => hSymbols other (List.mem_cons_of_mem word hMem)
      have hSplit : (String.join ((word :: words).map (" " ++ ·))).toList ++ rest =
          ' ' :: (word.toList ++ ((String.join (words.map (" " ++ ·))).toList ++ rest)) := by
        simp [String.toList_join]
      rw [hSplit]
      refine ⟨atBoundary_space _, ?_⟩
      rw [texts_space, texts_symbol (hSymbols word List.mem_cons_self) hBoundary, hTexts]
      rfl

/-- Texts with a space between them. -/
theorem spells_intercalate {parts : List String} {words : List (List String)}
    (hParts : List.Forall₂ Spells parts words) : Spells (String.intercalate " " parts) words.flatten := by
  induction hParts with
  | nil => exact fun _ _ => rfl
  | @cons part first parts words hPart hMore ih =>
      intro rest hRest
      cases hMore with
      | nil =>
          rw [String.intercalate_singleton, hPart rest hRest, List.flatten_cons, List.flatten_nil, List.append_nil]
      | @cons next second parts words hNext hLater =>
          have hSplit : (String.intercalate " " (part :: next :: parts)).toList ++ rest =
              part.toList ++ ' ' :: ((String.intercalate " " (next :: parts)).toList ++ rest) := by
            rw [String.intercalate_cons_cons]
            simp only [String.toList_append, List.append_assoc]
            rfl
          rw [hSplit, hPart _ (atBoundary_space _), texts_space, ih rest hRest, ← List.append_assoc,
            ← List.flatten_cons]

/-! ## Every token is a lexeme -/

/-- What is kept of a symbol while it is being read. -/
def Mode.IsLexical : Mode → Prop
  | .symbol _ reversed => IsSymbol (String.ofList reversed.reverse)
  | _ => True

theorem isSymbol_singleton {c : Char} (hChar : isSymbolChar c = true) (hComment : c ≠ ';') :
    IsSymbol (String.ofList [c]) := by
  refine ⟨?_, ?_, ?_⟩
  · rw [String.toList_ofList]
    exact List.cons_ne_nil _ _
  · intro other hMem
    rw [String.toList_ofList, List.mem_singleton] at hMem
    rw [hMem]
    exact hChar
  · rw [String.toList_ofList]
    simpa using hComment

theorem isSymbol_snoc {reversed : List Char} {c : Char} (hSymbol : IsSymbol (String.ofList reversed.reverse))
    (hChar : isSymbolChar c = true) : IsSymbol (String.ofList (c :: reversed).reverse) := by
  obtain ⟨hSome, hChars, hComment⟩ := hSymbol
  rw [String.toList_ofList] at hSome hChars hComment
  rw [List.reverse_cons]
  refine ⟨?_, ?_, ?_⟩
  · rw [String.toList_ofList]
    simp
  · intro other hMem
    rw [String.toList_ofList] at hMem
    rcases List.mem_append.mp hMem with hIn | hIn
    · exact hChars other hIn
    · rw [List.mem_singleton.mp hIn]
      exact hChar
  · rw [String.toList_ofList]
    generalize reversed.reverse = front at *
    cases front with
    | nil => exact absurd rfl hSome
    | cons first front => exact hComment

theorem isLexeme_singleton {c : Char} (hChar : isParenthesis c = true) : IsLexeme (String.ofList [c]) := by
  rcases isParenthesis_iff.mp hChar with rfl | rfl
  · exact .opening rfl
  · exact .closing rfl

theorem Mode.IsLexical.finish {mode : Mode} (hMode : mode.IsLexical) {token : Token}
    (hMem : token ∈ mode.finish) : IsLexeme token.text := by
  cases mode with
  | gap => exact absurd hMem List.not_mem_nil
  | comment => exact absurd hMem List.not_mem_nil
  | symbol start reversed =>
      rw [List.mem_singleton.mp hMem]
      exact .symbol hMode

theorem Mode.IsLexical.step {mode : Mode} (hMode : mode.IsLexical) (position : Nat) (c : Char) :
    (∀ token ∈ (mode.step position c).1, IsLexeme token.text) ∧ (mode.step position c).2.IsLexical := by
  have hNone : ∀ token ∈ ([] : List Token), IsLexeme token.text := fun _ hMem => absurd hMem List.not_mem_nil
  have hParenthesis (hChar : isParenthesis c = true) :
      ∀ token ∈ [Token.mk (String.ofList [c]) position], IsLexeme token.text := fun token hMem => by
    rw [List.mem_singleton.mp hMem]
    exact isLexeme_singleton hChar
  cases mode with
  | comment =>
      refine ⟨hNone, ?_⟩
      rw [Mode.step]
      dsimp only
      split
      · trivial
      · trivial
  | gap =>
      rw [Mode.step]
      split
      · exact ⟨hNone, trivial⟩
      next hBlank =>
      split
      · next hChar => exact ⟨hParenthesis hChar, trivial⟩
      next hChar =>
      split
      · exact ⟨hNone, trivial⟩
      · next hComment =>
          have hSymbolChar : isSymbolChar c = true :=
            isSymbolChar_iff.mpr ⟨by simpa using hBlank, by simpa using hChar⟩
          exact ⟨hNone, isSymbol_singleton hSymbolChar hComment⟩
  | symbol start reversed =>
      rw [Mode.step]
      split
      · exact ⟨fun _ hMem => hMode.finish hMem, trivial⟩
      next hBlank =>
      split
      · next hChar =>
          -- A parenthesis ends the symbol, so two tokens come out at once.
          refine ⟨fun token hMem => ?_, trivial⟩
          rcases List.mem_append.mp hMem with hSymbol | hOther
          · exact hMode.finish hSymbol
          · exact hParenthesis hChar token hOther
      · next hChar =>
          have hSymbolChar : isSymbolChar c = true :=
            isSymbolChar_iff.mpr ⟨by simpa using hBlank, by simpa using hChar⟩
          exact ⟨hNone, isSymbol_snoc hMode hSymbolChar⟩

theorem isLexeme_of_mem_scan {mode : Mode} {position : Nat} {cs : List Char} (hMode : mode.IsLexical)
    {token : Token} (hMem : token ∈ scan mode position cs) : IsLexeme token.text := by
  induction cs generalizing mode position with
  | nil => exact hMode.finish hMem
  | cons c cs ih =>
      obtain ⟨hNow, hNext⟩ := hMode.step position c
      rw [scan_cons] at hMem
      rcases List.mem_append.mp hMem with hStep | hRest
      · exact hNow token hStep
      · exact ih hNext hRest

/-- Every token of a text is a lexeme. -/
theorem isLexeme_of_mem_ofText {text word : String} (hMem : word ∈ (ofText text).map Token.text) :
    IsLexeme word := by
  obtain ⟨token, hToken, rfl⟩ := List.mem_map.mp hMem
  have hMode : Mode.gap.IsLexical := trivial
  exact isLexeme_of_mem_scan hMode hToken

theorem spells_isLexeme {word : String} (hLexeme : IsLexeme word) : Spells word [word] := by
  intro rest hRest
  cases hLexeme with
  | opening hText =>
      rw [hText]
      exact texts_opening rest
  | closing hText =>
      rw [hText]
      exact texts_closing rest
  | symbol hSymbol => exact texts_symbol hSymbol hRest

end Token
end PlanLogic
