import PlanLogic.Proofs.Printing.Lexemes
import Mathlib.Data.List.Induction
import Mathlib.Data.List.TakeWhile

/-!
# Tokens tile their text

A text is cut into blanks, comments, parentheses and symbols, in the way in which its tokens are found.  Each piece
fits what stands after it: a comment goes on to the end of its line, and a symbol goes on for as long as it can.  So
the tokens stand in the text in order and without overlaps, each with its own characters, and whatever stands between
them is blank or belongs to a comment.  Conversely, a scan of any pieces that fit finds the tokens among them, wherever
the pieces come from.  So the tokens are the same if something that is no token is put in after one of them.
-/

namespace PlanLogic
namespace Token

/-! ## Pieces -/

/-- A piece of a text. -/
inductive Tile where
  | blank (c : Char)
  /-- A semicolon and what follows it on its line. -/
  | comment (body : List Char)
  | parenthesis (c : Char)
  | symbol (cs : List Char)

/-- A place where a line ends. -/
def AtLineEnd (rest : List Char) : Prop :=
  ∀ c ∈ rest.head?, c = '\n'

namespace Tile

/-- The characters of a piece. -/
def chars : Tile → List Char
  | .blank c => [c]
  | .comment body => ';' :: body
  | .parenthesis c => [c]
  | .symbol cs => cs

/-- Whether a piece is a token. -/
def isToken : Tile → Bool
  | .blank _ => false
  | .comment _ => false
  | .parenthesis _ => true
  | .symbol _ => true

/-- The token that a piece is at a place, if it is one. -/
def tokens (position : Nat) (tile : Tile) : List Token :=
  if tile.isToken then [⟨String.ofList tile.chars, position⟩] else []

/-- A piece that is found before a rest of a text. -/
def Fits (rest : List Char) : Tile → Prop
  | .blank c => Text.isBlank c = true
  | .comment body => '\n' ∉ body ∧ AtLineEnd rest
  | .parenthesis c => isParenthesis c = true
  | .symbol cs => IsSymbol (String.ofList cs) ∧ AtBoundary rest

end Tile

/-- The characters of pieces. -/
def charsOf (tiles : List Tile) : List Char :=
  tiles.flatMap Tile.chars

/-- The tokens among pieces from a place on. -/
def tokensFrom : Nat → List Tile → List Token
  | _, [] => []
  | position, tile :: tiles => tile.tokens position ++ tokensFrom (position + tile.chars.length) tiles

/-- Pieces of which each fits what comes after it. -/
def Fit (rest : List Char) : List Tile → Prop
  | [] => True
  | tile :: tiles => tile.Fits (charsOf tiles ++ rest) ∧ Fit rest tiles

theorem charsOf_cons (tile : Tile) (tiles : List Tile) : charsOf (tile :: tiles) = tile.chars ++ charsOf tiles :=
  List.flatMap_cons

theorem charsOf_singleton (tile : Tile) : charsOf [tile] = tile.chars :=
  List.flatMap_singleton ..

theorem charsOf_append (left right : List Tile) : charsOf (left ++ right) = charsOf left ++ charsOf right :=
  List.flatMap_append

theorem tokensFrom_append (position : Nat) (left right : List Tile) :
    tokensFrom position (left ++ right) =
      tokensFrom position left ++ tokensFrom (position + (charsOf left).length) right := by
  induction left generalizing position with
  | nil => rfl
  | cons tile left ih =>
      rw [List.cons_append, tokensFrom, tokensFrom, ih, charsOf_cons, List.length_append, List.append_assoc,
        Nat.add_assoc]

theorem fit_append {rest : List Char} {left right : List Tile} :
    Fit rest (left ++ right) ↔ Fit (charsOf right ++ rest) left ∧ Fit rest right := by
  induction left with
  | nil => exact ⟨fun hRight => ⟨trivial, hRight⟩, And.right⟩
  | cons tile left ih => rw [List.cons_append, Fit, Fit, ih, charsOf_append, List.append_assoc, and_assoc]

/-! ## Scanning pieces -/

theorem Tile.Fits.chars_ne_nil {rest : List Char} {tile : Tile} (hFits : tile.Fits rest) : tile.chars ≠ [] := by
  cases tile with
  | blank => exact List.cons_ne_nil _ _
  | comment => exact List.cons_ne_nil _ _
  | parenthesis => exact List.cons_ne_nil _ _
  | symbol cs =>
      have hSome := hFits.1.nonempty
      rwa [String.toList_ofList] at hSome

/-- A comment is left at the end of its line. -/
theorem scan_comment {body rest : List Char} (hBody : '\n' ∉ body) (hRest : AtLineEnd rest) (position : Nat) :
    scan .comment position (body ++ rest) = scan .gap (position + body.length) rest := by
  induction body generalizing position with
  | nil =>
      cases rest with
      | nil => rfl
      | cons c rest =>
          obtain rfl := hRest c rfl
          rfl
  | cons c body ih =>
      rw [List.mem_cons, not_or] at hBody
      rw [List.cons_append, scan, if_neg (Ne.symm hBody.1), ih hBody.2, List.length_cons, Nat.add_right_comm,
        Nat.add_assoc]

/-- A scan finds a piece as it is, if the piece fits what comes after it. -/
theorem scan_tile {tile : Tile} {rest : List Char} (hFits : tile.Fits rest) (position : Nat) :
    scan .gap position (tile.chars ++ rest) =
      tile.tokens position ++ scan .gap (position + tile.chars.length) rest := by
  cases tile with
  | blank c =>
      have hBlank : Text.isBlank c = true := hFits
      rw [Tile.chars, List.singleton_append, scan, if_pos hBlank]
      rfl
  | comment body =>
      have hStart : scan .gap position (';' :: (body ++ rest)) = scan .comment (position + 1) (body ++ rest) := rfl
      rw [Tile.chars, List.cons_append, hStart, scan_comment hFits.1 hFits.2, List.length_cons, Nat.add_right_comm,
        Nat.add_assoc]
      rfl
  | parenthesis c =>
      have hParenthesis : isParenthesis c = true := hFits
      rw [Tile.chars, List.singleton_append, scan, if_neg (not_isBlank_of_isParenthesis hParenthesis),
        if_pos hParenthesis]
      rfl
  | symbol cs =>
      have hScan := scan_symbol hFits.1 hFits.2 position
      rw [String.toList_ofList] at hScan
      exact hScan

/-- A scan finds pieces that fit. -/
theorem scan_tiles {rest : List Char} {tiles : List Tile} (hFit : Fit rest tiles) (position : Nat) :
    scan .gap position (charsOf tiles ++ rest) =
      tokensFrom position tiles ++ scan .gap (position + (charsOf tiles).length) rest := by
  induction tiles generalizing position with
  | nil => rfl
  | cons tile tiles ih =>
      rw [charsOf_cons, List.append_assoc, scan_tile hFit.1, ih hFit.2, tokensFrom, List.length_append,
        List.append_assoc, Nat.add_assoc]

/-! ## Every text is cut into pieces -/

theorem atBoundary_dropWhile (cs : List Char) : AtBoundary (cs.dropWhile isSymbolChar) := by
  have hHead := List.head?_dropWhile_not isSymbolChar cs
  cases hDrop : cs.dropWhile isSymbolChar with
  | nil => trivial
  | cons c rest =>
      rw [hDrop] at hHead
      exact hHead

theorem atLineEnd_dropWhile (cs : List Char) : AtLineEnd (cs.dropWhile (· != '\n')) := by
  intro c hFirst
  have hHead := List.head?_dropWhile_not (· != '\n') cs
  rw [hFirst] at hHead
  exact bne_eq_false_iff_eq.mp hHead

/-- A piece stands at the start of every text that is not empty. -/
theorem exists_tile (c : Char) (cs : List Char) :
    ∃ (tile : Tile) (rest : List Char), c :: cs = tile.chars ++ rest ∧ tile.Fits rest := by
  cases hBlank : Text.isBlank c with
  | true => exact ⟨.blank c, cs, rfl, hBlank⟩
  | false =>
  cases hParenthesis : isParenthesis c with
  | true => exact ⟨.parenthesis c, cs, rfl, hParenthesis⟩
  | false =>
  by_cases hComment : c = ';'
  · refine ⟨.comment (cs.takeWhile (· != '\n')), cs.dropWhile (· != '\n'), ?_, ?_, atLineEnd_dropWhile cs⟩
    · rw [Tile.chars, List.cons_append, List.takeWhile_append_dropWhile, hComment]
    · intro hMem
      simpa using List.mem_takeWhile_imp hMem
  · have hChars : ∀ other ∈ c :: cs.takeWhile isSymbolChar, isSymbolChar other = true := by
      rw [List.forall_mem_cons]
      exact ⟨isSymbolChar_iff.mpr ⟨hBlank, hParenthesis⟩, fun other hMem => List.mem_takeWhile_imp hMem⟩
    refine ⟨.symbol (c :: cs.takeWhile isSymbolChar), cs.dropWhile isSymbolChar, ?_, ⟨?_, ?_, ?_⟩,
      atBoundary_dropWhile cs⟩
    · rw [Tile.chars, List.cons_append, List.takeWhile_append_dropWhile]
    · rw [String.toList_ofList]
      exact List.cons_ne_nil _ _
    · rwa [String.toList_ofList]
    · rw [String.toList_ofList]
      simpa using hComment

/-- Every text is cut into pieces that fit. -/
theorem exists_tiles (cs : List Char) : ∃ tiles, charsOf tiles = cs ∧ Fit [] tiles := by
  -- What follows the first piece is shorter.
  induction hLength : cs.length using Nat.strongRecOn generalizing cs with
  | ind length ih =>
      cases cs with
      | nil => exact ⟨[], rfl, trivial⟩
      | cons c cs =>
          obtain ⟨tile, rest, hText, hFits⟩ := exists_tile c cs
          have hPositive := List.length_pos_iff.mpr hFits.chars_ne_nil
          have hShorter : rest.length < length := by
            rw [← hLength, hText, List.length_append]
            omega
          obtain ⟨tiles, hRest, hFit⟩ := ih rest.length hShorter rest rfl
          refine ⟨tile :: tiles, ?_, ?_, hFit⟩
          · rw [charsOf_cons, hRest, hText]
          · rwa [hRest, List.append_nil]

/-- The tokens of a text are those among pieces that fit. -/
theorem ofText_eq_tokensFrom (text : String) :
    ∃ tiles, text.toList = charsOf tiles ∧ Fit [] tiles ∧ ofText text = tokensFrom 0 tiles := by
  obtain ⟨tiles, hText, hFit⟩ := exists_tiles text.toList
  have hTokens := scan_tiles hFit 0
  rw [List.append_nil, hText] at hTokens
  exact ⟨tiles, hText.symm, hFit, hTokens.trans (List.append_nil _)⟩

/-! ## Where tokens stand -/

/-- The place after the last character of a token. -/
def stop (token : Token) : Nat :=
  token.position + token.text.length

/-- A token takes up a place of its text. -/
def Covers (token : Token) (place : Nat) : Prop :=
  token.position ≤ place ∧ place < token.stop

/-- The tokens among pieces are the pieces that are tokens, each at its place. -/
theorem mem_tokensFrom_iff {token : Token} {position : Nat} {tiles : List Tile} :
    token ∈ tokensFrom position tiles ↔
      ∃ before tile after, tiles = before ++ tile :: after ∧ tile.isToken = true ∧
        token = ⟨String.ofList tile.chars, position + (charsOf before).length⟩ := by
  constructor
  · intro hMem
    induction tiles generalizing position with
    | nil => exact absurd hMem List.not_mem_nil
    | cons tile tiles ih =>
        rcases List.mem_append.mp hMem with hHere | hLater
        · rw [Tile.tokens] at hHere
          split at hHere
          · next hToken => exact ⟨[], tile, tiles, rfl, hToken, List.mem_singleton.mp hHere⟩
          · exact absurd hHere List.not_mem_nil
        · obtain ⟨before, found, after, rfl, hToken, hFound⟩ := ih hLater
          refine ⟨tile :: before, found, after, rfl, hToken, ?_⟩
          rw [hFound, charsOf_cons, List.length_append, Nat.add_assoc]
  · rintro ⟨before, tile, after, rfl, hToken, rfl⟩
    rw [tokensFrom_append, tokensFrom, Tile.tokens, if_pos hToken]
    exact List.mem_append_right _ List.mem_cons_self

/-- The tokens among pieces stand among their characters. -/
theorem between_of_mem_tokensFrom {token : Token} {position : Nat} {tiles : List Tile}
    (hMem : token ∈ tokensFrom position tiles) :
    position ≤ token.position ∧ token.stop ≤ position + (charsOf tiles).length := by
  obtain ⟨before, tile, after, rfl, -, rfl⟩ := mem_tokensFrom_iff.mp hMem
  rw [stop, charsOf_append, charsOf_cons, List.length_append, List.length_append, String.length_ofList]
  dsimp only
  omega

/-- The tokens among pieces that fit stand one after the other. -/
theorem pairwise_tokensFrom {rest : List Char} {tiles : List Tile} (hFit : Fit rest tiles) (position : Nat) :
    (tokensFrom position tiles).Pairwise fun token next =>
      token.position < next.position ∧ token.stop ≤ next.position := by
  induction tiles generalizing position with
  | nil => exact List.Pairwise.nil
  | cons tile tiles ih =>
      rw [tokensFrom, Tile.tokens]
      split
      · refine List.pairwise_cons.mpr ⟨fun next hNext => ?_, ih hFit.2 _⟩
        have hLater := (between_of_mem_tokensFrom hNext).1
        have hPositive := List.length_pos_iff.mpr hFit.1.chars_ne_nil
        rw [stop, String.length_ofList]
        dsimp only
        omega
      · exact ih hFit.2 _

/-- Before the start of a symbol no symbol ends. -/
theorem atBoundary_reverse_charsOf {c : Char} (hChar : isSymbolChar c = true) {rest : List Char} {tiles : List Tile}
    (hFit : Fit (c :: rest) tiles) : AtBoundary (charsOf tiles).reverse := by
  cases tiles using List.reverseRecOn with
  | nil => trivial
  | append_singleton tiles tile =>
      have hFits : tile.Fits (c :: rest) := (fit_append.mp hFit).2.1
      have hLast (d : Char) (hEnd : isSymbolChar d = false) : AtBoundary (charsOf tiles ++ [d]).reverse := by
        rw [List.reverse_concat]
        exact hEnd
      rw [charsOf_append, charsOf_cons]
      cases tile with
      | blank d => exact hLast d (by rw [isSymbolChar, show Text.isBlank d = true from hFits]; rfl)
      | comment body =>
          obtain rfl : c = '\n' := hFits.2 c rfl
          exact absurd hChar (by decide)
      | parenthesis d =>
          have hParenthesis : isParenthesis d = true := hFits
          exact hLast d (by rw [isSymbolChar, hParenthesis, Bool.not_true, Bool.and_false])
      | symbol cs =>
          have hBoundary : isSymbolChar c = false := hFits.2
          exact absurd (hChar.symm.trans hBoundary) (by decide)

/-- Every character of pieces stands in one of them. -/
theorem exists_tile_at {tiles : List Tile} {front back : List Char} {c : Char}
    (hText : charsOf tiles = front ++ c :: back) :
    ∃ before tile after left right, tiles = before ++ tile :: after ∧ tile.chars = left ++ c :: right ∧
      front = charsOf before ++ left := by
  induction tiles generalizing front with
  | nil => exact absurd hText.symm (List.append_ne_nil_of_right_ne_nil _ (List.cons_ne_nil _ _))
  | cons tile tiles ih =>
      rw [charsOf_cons] at hText
      -- The front reaches beyond the first piece, or ends with it or inside it.
      obtain ⟨middle, hFront, hRest⟩ | ⟨middle, hTile, hBack⟩ := List.append_eq_append_iff.mp hText
      · obtain ⟨before, found, after, left, right, rfl, hFound, rfl⟩ := ih hRest
        refine ⟨tile :: before, found, after, left, right, rfl, hFound, ?_⟩
        rw [hFront, charsOf_cons, List.append_assoc]
      · cases middle with
        | nil =>
            obtain ⟨before, found, after, left, right, rfl, hFound, hNone⟩ := @ih [] hBack.symm
            obtain ⟨hBefore, hLeft⟩ := List.append_eq_nil_iff.mp hNone.symm
            refine ⟨tile :: before, found, after, left, right, rfl, hFound, ?_⟩
            rw [charsOf_cons, hBefore, hLeft, hTile, List.append_nil, List.append_nil, List.append_nil]
        | cons d middle =>
            obtain ⟨rfl, -⟩ := List.cons.inj hBack
            exact ⟨[], tile, tiles, front, middle, rfl, hTile, rfl⟩

/-! ## The tiling of a text -/

/-- A token with all of the text around it that could belong to it: a parenthesis by itself, or a symbol between
characters of which none is one of a symbol. -/
inductive IsMaximal (front back : List Char) (token : Token) : Prop
  | opening (hText : token.text = "(")
  | closing (hText : token.text = ")")
  | symbol (hSymbol : IsSymbol token.text) (hFront : AtBoundary front.reverse) (hBack : AtBoundary back)

/-- A comment between tokens: it starts with a semicolon, goes on to just before the next line feed or to the end of
the text, and no token takes up a place in it. -/
structure IsComment (tokens : List Token) (front comment back : List Char) : Prop where
  opened : comment.head? = some ';'
  line : '\n' ∉ comment
  ended : AtLineEnd back
  apart : ∀ token ∈ tokens, token.stop ≤ front.length ∨ front.length + comment.length ≤ token.position

/-- Tokens tile a text: they stand in it in order and without overlaps, each with its characters, and every other
character is blank or belongs to a comment. -/
structure Tiling (text : List Char) (tokens : List Token) : Prop where
  ordered : tokens.Pairwise fun token next => token.position < next.position ∧ token.stop ≤ next.position
  placed : ∀ token ∈ tokens, ∃ front back,
    text = front ++ token.text.toList ++ back ∧ token.position = front.length ∧ token.IsMaximal front back
  others : ∀ front c back, text = front ++ c :: back → (∀ token ∈ tokens, ¬ token.Covers front.length) →
    Text.isBlank c = true ∨ ∃ before comment after, text = before ++ comment ++ after ∧
      IsComment tokens before comment after ∧ before.length ≤ front.length ∧
      front.length < before.length + comment.length

/-- The tokens among pieces that fit tile their characters. -/
theorem tiling_tokensFrom {tiles : List Tile} (hFit : Fit [] tiles) :
    Tiling (charsOf tiles) (tokensFrom 0 tiles) where
  ordered := pairwise_tokensFrom hFit 0
  placed token hMem := by
    obtain ⟨before, tile, after, rfl, hToken, rfl⟩ := mem_tokensFrom_iff.mp hMem
    refine ⟨charsOf before, charsOf after, ?_, Nat.zero_add _, ?_⟩
    · rw [charsOf_append, charsOf_cons, String.toList_ofList, List.append_assoc]
    · obtain ⟨hBefore, hFits, -⟩ := fit_append.mp hFit
      rw [List.append_nil] at hBefore hFits
      cases tile with
      | blank => exact absurd hToken Bool.false_ne_true
      | comment => exact absurd hToken Bool.false_ne_true
      | parenthesis c =>
          rcases isParenthesis_iff.mp (show isParenthesis c = true from hFits) with rfl | rfl
          · exact .opening rfl
          · exact .closing rfl
      | symbol cs =>
          obtain ⟨hSymbol, hBack⟩ := hFits
          refine .symbol hSymbol ?_ hBack
          have hSome := hSymbol.nonempty
          have hChars := hSymbol.chars
          rw [String.toList_ofList] at hSome hChars
          obtain ⟨c, more, rfl⟩ := List.exists_cons_of_ne_nil hSome
          exact atBoundary_reverse_charsOf (hChars c List.mem_cons_self) hBefore
  others front c back hText hFree := by
    obtain ⟨before, tile, after, left, right, rfl, hTile, rfl⟩ := exists_tile_at hText
    obtain ⟨-, hFits, -⟩ := fit_append.mp hFit
    rw [List.append_nil] at hFits
    have hLess : left.length < tile.chars.length := by
      rw [hTile, List.length_append, List.length_cons]
      omega
    have hToken (hIs : tile.isToken = true) : False := by
      refine hFree _ (mem_tokensFrom_iff.mpr ⟨before, tile, after, rfl, hIs, rfl⟩) ?_
      rw [Covers, stop, String.length_ofList, List.length_append]
      dsimp only
      omega
    cases tile with
    | blank d =>
        have hBlank : Text.isBlank d = true := hFits
        rcases List.append_eq_singleton_iff.mp hTile.symm with ⟨-, hSame⟩ | ⟨-, hNone⟩
        · obtain ⟨rfl, -⟩ := List.cons.inj hSame
          exact .inl hBlank
        · exact absurd hNone (List.cons_ne_nil _ _)
    | comment body =>
        refine .inr ⟨charsOf before, ';' :: body, charsOf after, ?_, ⟨rfl, ?_, hFits.2, fun token hMem => ?_⟩, ?_, ?_⟩
        · rw [charsOf_append, charsOf_cons, Tile.chars, List.append_assoc]
        · rw [List.mem_cons, not_or]
          exact ⟨by decide, hFits.1⟩
        · rw [tokensFrom_append, Nat.zero_add] at hMem
          rcases List.mem_append.mp hMem with hBefore | hAfter
          · have hEnd := (between_of_mem_tokensFrom hBefore).2
            rw [Nat.zero_add] at hEnd
            exact .inl hEnd
          · have hLater : token ∈ tokensFrom ((charsOf before).length + (';' :: body).length) after := hAfter
            exact .inr (between_of_mem_tokensFrom hLater).1
        · rw [List.length_append]
          exact Nat.le_add_right _ _
        · rw [List.length_append]
          exact Nat.add_lt_add_left hLess _
    | parenthesis d => exact (hToken rfl).elim
    | symbol cs => exact (hToken rfl).elim

/-! ## What may be put in after a token -/

/-- What separates tokens: blanks, or a space and a comment with the line feed that ends its line. -/
inductive IsGap : List Char → Prop
  | blanks {cs : List Char} (hBlanks : ∀ c ∈ cs, Text.isBlank c = true) : IsGap cs
  | comment {body : List Char} (hBody : '\n' ∉ body) : IsGap (' ' :: ';' :: (body ++ ['\n']))

theorem IsGap.atBoundary {gap rest : List Char} (hGap : IsGap gap) (hRest : AtBoundary rest) :
    AtBoundary (gap ++ rest) := by
  cases hGap with
  | comment => exact atBoundary_space _
  | blanks hBlanks =>
      cases gap with
      | nil => exact hRest
      | cons c gap =>
          show isSymbolChar c = false
          rw [isSymbolChar, hBlanks c List.mem_cons_self]
          rfl

/-- Whether a piece fits what comes after it depends on the next character only. -/
theorem Tile.Fits.congr {rest other : List Char} (hHead : rest.head? = other.head?) {tile : Tile}
    (hFits : tile.Fits rest) : tile.Fits other := by
  cases tile with
  | blank => exact hFits
  | comment => exact ⟨hFits.1, by rw [AtLineEnd, ← hHead]; exact hFits.2⟩
  | parenthesis => exact hFits
  | symbol => exact ⟨hFits.1, by rw [atBoundary_iff, ← hHead, ← atBoundary_iff]; exact hFits.2⟩

theorem Fit.congr {rest other : List Char} (hHead : rest.head? = other.head?) {tiles : List Tile}
    (hFit : Fit rest tiles) : Fit other tiles := by
  induction tiles with
  | nil => trivial
  | cons tile tiles ih => exact ⟨hFit.1.congr (by rw [List.head?_append, hHead, ← List.head?_append]), ih hFit.2⟩

/-- The texts of the tokens among pieces come first. -/
theorem texts_tiles {rest : List Char} {tiles : List Tile} (hFit : Fit rest tiles) :
    texts (charsOf tiles ++ rest) = (tokensFrom 0 tiles).map Token.text ++ texts rest := by
  rw [texts, scan_tiles hFit, List.map_append, map_text_scan_gap]

/-- What separates tokens holds none. -/
theorem IsGap.texts_append {gap : List Char} (hGap : IsGap gap) (rest : List Char) :
    texts (gap ++ rest) = texts rest := by
  cases hGap with
  | blanks hBlanks =>
      induction gap with
      | nil => rfl
      | cons c gap ih =>
          rw [List.cons_append, texts_blank (hBlanks c List.mem_cons_self),
            ih fun other hMem => hBlanks other (List.mem_cons_of_mem c hMem)]
  | @comment body hBody =>
      have hSpace : Text.isBlank ' ' = true := by decide
      have hFeed : Text.isBlank '\n' = true := by decide
      have hFit : Fit rest [.blank ' ', .comment body, .blank '\n'] :=
        ⟨hSpace, ⟨hBody, fun c hFirst => (Option.some.inj hFirst).symm⟩, hFeed, trivial⟩
      have hTexts := texts_tiles hFit
      rw [charsOf_cons, charsOf_cons] at hTexts
      exact hTexts

/-- The texts of tokens stay the same if something is put in after one of them that separates tokens. -/
theorem texts_insert {text : String} {token : Token} (hMem : token ∈ ofText text) {gap : List Char}
    (hGap : IsGap gap) :
    texts (text.toList.take token.stop ++ gap ++ text.toList.drop token.stop) = texts text.toList := by
  obtain ⟨tiles, hText, hFit, hTokens⟩ := ofText_eq_tokensFrom text
  rw [hTokens] at hMem
  obtain ⟨before, tile, after, rfl, hToken, rfl⟩ := mem_tokensFrom_iff.mp hMem
  obtain ⟨hBefore, hTile, -⟩ := fit_append.mp hFit
  rw [List.append_nil] at hBefore hTile
  -- The pieces up to the token fit what comes after it with or without the gap.
  have hUpTo : Fit (charsOf after) (before ++ [tile]) := by
    rw [fit_append, charsOf_singleton]
    exact ⟨hBefore, hTile, trivial⟩
  have hGapFits : tile.Fits (gap ++ charsOf after) := by
    cases tile with
    | blank => exact absurd hToken Bool.false_ne_true
    | comment => exact absurd hToken Bool.false_ne_true
    | parenthesis => exact hTile
    | symbol => exact ⟨hTile.1, hGap.atBoundary hTile.2⟩
  have hWithGap : Fit (gap ++ charsOf after) (before ++ [tile]) := by
    refine fit_append.mpr ⟨hBefore.congr ?_, hGapFits, trivial⟩
    obtain ⟨c, cs, hChars⟩ := List.exists_cons_of_ne_nil hTile.chars_ne_nil
    rw [charsOf_cons, charsOf_singleton, hChars]
    rfl
  have hSplit : charsOf (before ++ tile :: after) = charsOf (before ++ [tile]) ++ charsOf after := by
    rw [← charsOf_append, List.append_assoc, List.singleton_append]
  have hStop : stop ⟨String.ofList tile.chars, 0 + (charsOf before).length⟩ = (charsOf (before ++ [tile])).length := by
    rw [stop, String.length_ofList, charsOf_append, charsOf_singleton, List.length_append, Nat.zero_add]
  rw [hText, hSplit, hStop, List.take_left, List.drop_left, List.append_assoc, texts_tiles hWithGap,
    hGap.texts_append, texts_tiles hUpTo]

/-- The texts of tokens are found again if they are written with single spaces between them. -/
theorem map_text_ofText_intercalate (text : String) :
    (ofText (String.intercalate " " ((ofText text).map Token.text))).map Token.text = (ofText text).map Token.text := by
  have hSpells : List.Forall₂ Spells ((ofText text).map Token.text) (((ofText text).map Token.text).map ([·])) := by
    rw [List.forall₂_map_right_iff, List.forall₂_same]
    exact fun word hMem => spells_isLexeme (isLexeme_of_mem_ofText hMem)
  have hTexts := (spells_intercalate hSpells).map_text_ofText
  rwa [← List.flatMap_def, List.flatMap_singleton'] at hTexts

/-- The tokens of a text tile it.  Their texts stay the same if blanks, or a space and a comment with its line feed,
are put in just after one of them, and if they are written with single spaces between them. -/
theorem tiling_ofText (text : String) :
    Tiling text.toList (ofText text) ∧
      (∀ token ∈ ofText text, ∀ gap, IsGap gap →
        (ofText (String.ofList (text.toList.take token.stop ++ gap ++ text.toList.drop token.stop))).map Token.text =
          (ofText text).map Token.text) ∧
      (ofText (String.intercalate " " ((ofText text).map Token.text))).map Token.text =
        (ofText text).map Token.text := by
  refine ⟨?_, fun token hMem gap hGap => ?_, map_text_ofText_intercalate text⟩
  · obtain ⟨tiles, hText, hFit, hTokens⟩ := ofText_eq_tokensFrom text
    rw [hText, hTokens]
    exact tiling_tokensFrom hFit
  · rw [ofText, String.toList_ofList]
    exact texts_insert hMem hGap

/-- Here semicolons stand inside a symbol, at the start of a comment and inside one, and the comment holds a
parenthesis. -/
theorem tiling_ofText_comments :
    let text := "(p;q ;c (x;\n\ta)"
    let token : Token := ⟨"p;q", 1⟩
    let gap := " ;)\n".toList
    ofText text = [⟨"(", 0⟩, token, ⟨"a", 13⟩, ⟨")", 14⟩] ∧ token ∈ ofText text ∧ IsGap gap ∧
      (ofText "(p;q ;)\n ;c (x;\n\ta)").map Token.text = (ofText text).map Token.text := by
  intro text token gap
  have hTokens : ofText text = [⟨"(", 0⟩, token, ⟨"a", 13⟩, ⟨")", 14⟩] := by decide +kernel
  have hMem : token ∈ ofText text := by
    rw [hTokens]
    decide
  have hGap : IsGap gap := @IsGap.comment [')'] (by decide)
  have hLonger : String.ofList (text.toList.take token.stop ++ gap ++ text.toList.drop token.stop) =
      "(p;q ;)\n ;c (x;\n\ta)" := by decide +kernel
  have hTexts := (tiling_ofText text).2.1 token hMem gap hGap
  rw [hLonger] at hTexts
  exact ⟨hTokens, hMem, hGap, hTexts⟩

end Token
end PlanLogic
