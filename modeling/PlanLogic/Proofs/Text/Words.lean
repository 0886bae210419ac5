import PlanLogic.Text.Blank
import Mathlib.Data.List.Basic
import Mathlib.Data.List.Induction
import Mathlib.Data.List.TakeWhile

/-!
# Words and lines

A blank separates the words before it from those after it, and everything about words follows from that one
equation.  In the same way a separator cuts a text into pieces; joining pieces and cutting them again gives the pieces
back, and so does cutting a text and joining its pieces for the text.  Stripping leaves a text alone that has no blank
at its ends.
-/

namespace PlanLogic
namespace Text

/-! ## Words -/

theorem wordsFrom_append_blank {c : Char} (hBlank : isBlank c = true) (word before after : List Char) :
    wordsFrom word (before ++ c :: after) = wordsFrom word before ++ words after := by
  induction before generalizing word with
  | nil =>
      rw [List.nil_append, wordsFrom, wordsFrom, if_pos hBlank]
      split
      · rfl
      · rfl
  | cons d before ih =>
      rw [List.cons_append, wordsFrom, wordsFrom]
      split
      · split
        · exact ih []
        · rw [ih [], List.cons_append]
      · exact ih (d :: word)

/-- A blank separates words. -/
theorem words_append_blank {c : Char} (hBlank : isBlank c = true) (before after : List Char) :
    words (before ++ c :: after) = words before ++ words after :=
  wordsFrom_append_blank hBlank [] before after

theorem wordsFrom_of_not_blank {cs : List Char} (hChars : ∀ c ∈ cs, isBlank c = false) (word : List Char) :
    wordsFrom word cs = wordsFrom (cs.reverse ++ word) [] := by
  induction cs generalizing word with
  | nil => rfl
  | cons c cs ih =>
      have hBlank := hChars c List.mem_cons_self
      rw [wordsFrom.eq_2, hBlank, if_neg Bool.false_ne_true, ih fun d hMem => hChars d (List.mem_cons_of_mem c hMem),
        List.reverse_cons, List.append_assoc, List.singleton_append]

/-- A text without blanks is one word. -/
theorem words_of_not_blank {cs : List Char} (hSome : cs ≠ []) (hChars : ∀ c ∈ cs, isBlank c = false) :
    words cs = [cs] := by
  rw [words, wordsFrom_of_not_blank hChars, List.append_nil, wordsFrom,
    if_neg (by rwa [List.reverse_eq_nil_iff]), List.reverse_reverse]

/-- Words that each have a space before them. -/
theorem words_spaced {first : List Char} {more : List (List Char)}
    (hWords : ∀ word ∈ first :: more, word ≠ [] ∧ ∀ c ∈ word, isBlank c = false) :
    words (first ++ more.flatMap (' ' :: ·)) = first :: more := by
  induction more generalizing first with
  | nil =>
      obtain ⟨hSome, hChars⟩ := hWords first List.mem_cons_self
      rw [List.flatMap_nil, List.append_nil, words_of_not_blank hSome hChars]
  | cons second more ih =>
      obtain ⟨hSome, hChars⟩ := hWords first List.mem_cons_self
      rw [List.flatMap_cons, List.cons_append, words_append_blank (by decide), words_of_not_blank hSome hChars,
        ih fun word hMem => hWords word (List.mem_cons_of_mem first hMem)]
      rfl

theorem mem_wordsFrom {word cs : List Char} {found : List Char} (hMem : found ∈ wordsFrom word cs)
    (hWord : ∀ c ∈ word, isBlank c = false) :
    found ≠ [] ∧ ∀ c ∈ found, isBlank c = false ∧ (c ∈ word ∨ c ∈ cs) := by
  induction cs generalizing word with
  | nil =>
      rw [wordsFrom] at hMem
      split at hMem
      · exact absurd hMem List.not_mem_nil
      · next hSome =>
          rw [List.mem_singleton.mp hMem]
          refine ⟨by rwa [Ne, List.reverse_eq_nil_iff], fun c hIn => ?_⟩
          rw [List.mem_reverse] at hIn
          exact ⟨hWord c hIn, .inl hIn⟩
  | cons d cs ih =>
      have hLater (hIn : found ∈ wordsFrom [] cs) :
          found ≠ [] ∧ ∀ c ∈ found, isBlank c = false ∧ (c ∈ word ∨ c ∈ d :: cs) := by
        obtain ⟨hSome, hChars⟩ := ih hIn (fun _ hNone => absurd hNone List.not_mem_nil)
        refine ⟨hSome, fun c hIn => ?_⟩
        obtain ⟨hBlank, hNone | hRest⟩ := hChars c hIn
        · exact absurd hNone List.not_mem_nil
        · exact ⟨hBlank, .inr (List.mem_cons_of_mem d hRest)⟩
      rw [wordsFrom] at hMem
      split at hMem
      · split at hMem
        · exact hLater hMem
        · next hSome =>
            rcases List.mem_cons.mp hMem with rfl | hIn
            · refine ⟨by rwa [Ne, List.reverse_eq_nil_iff], fun c hIn => ?_⟩
              rw [List.mem_reverse] at hIn
              exact ⟨hWord c hIn, .inl hIn⟩
            · exact hLater hIn
      · next hBlank =>
          have hLonger : ∀ c ∈ d :: word, isBlank c = false := by
            rw [List.forall_mem_cons]
            exact ⟨by simpa using hBlank, hWord⟩
          obtain ⟨hSome, hChars⟩ := ih hMem hLonger
          refine ⟨hSome, fun c hIn => ?_⟩
          obtain ⟨hOther, hHere | hRest⟩ := hChars c hIn
          · rcases List.mem_cons.mp hHere with rfl | hOld
            · exact ⟨hOther, .inr List.mem_cons_self⟩
            · exact ⟨hOther, .inl hOld⟩
          · exact ⟨hOther, .inr (List.mem_cons_of_mem d hRest)⟩

/-- A word is some characters of the text, none of them blank. -/
theorem mem_words {cs found : List Char} (hMem : found ∈ words cs) :
    found ≠ [] ∧ ∀ c ∈ found, isBlank c = false ∧ c ∈ cs := by
  obtain ⟨hSome, hChars⟩ := mem_wordsFrom hMem (fun _ hNone => absurd hNone List.not_mem_nil)
  refine ⟨hSome, fun c hIn => ?_⟩
  obtain ⟨hBlank, hNone | hRest⟩ := hChars c hIn
  · exact absurd hNone List.not_mem_nil
  · exact ⟨hBlank, hRest⟩

theorem wordsFrom_ne_nil {word : List Char} (hWord : word ≠ []) (cs : List Char) : wordsFrom word cs ≠ [] := by
  induction cs generalizing word with
  | nil =>
      rw [wordsFrom, if_neg hWord]
      exact List.cons_ne_nil _ _
  | cons c cs ih =>
      rw [wordsFrom, if_neg hWord]
      split
      · exact List.cons_ne_nil _ _
      · exact ih (List.cons_ne_nil c word)

/-- A text without words is blank. -/
theorem isBlank_of_words_eq_nil {cs : List Char} (hWords : words cs = []) : ∀ c ∈ cs, isBlank c = true := by
  induction cs with
  | nil => exact fun _ hMem => absurd hMem List.not_mem_nil
  | cons c cs ih =>
      rw [words, wordsFrom, if_pos rfl] at hWords
      split at hWords
      · next hBlank => exact List.forall_mem_cons.mpr ⟨hBlank, ih hWords⟩
      · exact absurd hWords (wordsFrom_ne_nil (List.cons_ne_nil c []) cs)

/-- A blank at the start of a text belongs to no word. -/
theorem words_cons_blank {c : Char} (hBlank : isBlank c = true) (cs : List Char) : words (c :: cs) = words cs :=
  words_append_blank hBlank [] cs

/-- The blanks before a text belong to no word. -/
theorem words_blanks_append {gap : List Char} (hGap : ∀ c ∈ gap, isBlank c = true) (cs : List Char) :
    words (gap ++ cs) = words cs := by
  induction gap with
  | nil => rfl
  | cons c gap ih =>
      obtain ⟨hBlank, hMore⟩ := List.forall_mem_cons.mp hGap
      rw [List.cons_append, words_cons_blank hBlank, ih hMore]

/-- A word ends where a blank or nothing follows. -/
theorem words_word_append {word rest : List Char} (hSome : word ≠ []) (hChars : ∀ c ∈ word, isBlank c = false)
    (hRest : ∀ c ∈ rest.head?, isBlank c = true) : words (word ++ rest) = word :: words rest := by
  cases rest with
  | nil => rw [List.append_nil, words_of_not_blank hSome hChars, words, wordsFrom, if_pos rfl]
  | cons c rest =>
      have hBlank : isBlank c = true := hRest c rfl
      rw [words_append_blank hBlank, words_of_not_blank hSome hChars, words_cons_blank hBlank, List.singleton_append]

/-- Only blanks stand before the first word of a text, and what follows it is empty or starts with a blank. -/
theorem exists_of_words_eq_cons {cs word : List Char} {more : List (List Char)} (hWords : words cs = word :: more) :
    ∃ gap rest, cs = gap ++ (word ++ rest) ∧ (∀ c ∈ gap, isBlank c = true) ∧
      (∀ c ∈ rest.head?, isBlank c = true) ∧ words rest = more := by
  induction cs with
  | nil => exact absurd hWords (List.cons_ne_nil word more).symm
  | cons c cs ih =>
      cases hBlank : isBlank c with
      | true =>
          rw [words_cons_blank hBlank] at hWords
          obtain ⟨gap, rest, rfl, hGap, hFollow, hMore⟩ := ih hWords
          exact ⟨c :: gap, rest, rfl, List.forall_mem_cons.mpr ⟨hBlank, hGap⟩, hFollow, hMore⟩
      | false =>
          -- The text starts with a word, which is the longest run without blanks.
          let found := c :: cs.takeWhile (!isBlank ·)
          let rest := cs.dropWhile (!isBlank ·)
          have hSplit : c :: cs = found ++ rest := congrArg (c :: ·) List.takeWhile_append_dropWhile.symm
          have hFound : ∀ d ∈ found, isBlank d = false :=
            List.forall_mem_cons.mpr ⟨hBlank, fun d hMem => by simpa using List.mem_takeWhile_imp hMem⟩
          have hFollow : ∀ d ∈ rest.head?, isBlank d = true := fun d hHead => by
            have hStop := List.head?_dropWhile_not (!isBlank ·) cs
            rw [Option.mem_def.mp hHead] at hStop
            simpa using hStop
          rw [hSplit, words_word_append (List.cons_ne_nil _ _) hFound hFollow, List.cons.injEq] at hWords
          obtain ⟨rfl, hMore⟩ := hWords
          exact ⟨[], rest, hSplit, fun _ hNone => absurd hNone List.not_mem_nil, hFollow, hMore⟩

/-! ## Stripping -/

theorem stripStart_cons {c : Char} (hBlank : isBlank c = false) (cs : List Char) :
    stripStart (c :: cs) = c :: cs := by
  rw [stripStart, List.dropWhile_cons_of_neg (by simp [hBlank])]

theorem stripStart_cons_blank {c : Char} (hBlank : isBlank c = true) (cs : List Char) :
    stripStart (c :: cs) = stripStart cs :=
  List.dropWhile_cons_of_pos hBlank

theorem stripEnd_concat {c : Char} (hBlank : isBlank c = false) (cs : List Char) :
    stripEnd (cs ++ [c]) = cs ++ [c] := by
  rw [stripEnd, List.reverse_append, List.reverse_singleton, List.singleton_append,
    List.dropWhile_cons_of_neg (by simp [hBlank]), List.reverse_cons, List.reverse_reverse]

theorem stripEnd_concat_blank {c : Char} (hBlank : isBlank c = true) (cs : List Char) :
    stripEnd (cs ++ [c]) = stripEnd cs := by
  rw [stripEnd, stripEnd, List.reverse_append, List.reverse_singleton, List.singleton_append,
    List.dropWhile_cons_of_pos hBlank]

/-- A text whose first and last characters are no blanks is stripped already. -/
theorem strip_between {first last : Char} (hFirst : isBlank first = false) (hLast : isBlank last = false)
    (inner : List Char) : strip (first :: (inner ++ [last])) = first :: (inner ++ [last]) := by
  rw [strip, stripStart_cons hFirst, ← List.cons_append, stripEnd_concat hLast]

/-- A text without blanks at its ends is stripped already. -/
theorem strip_of_ends {cs : List Char} (hFirst : ∀ c ∈ cs.head?, isBlank c = false)
    (hLast : ∀ c ∈ cs.getLast?, isBlank c = false) : strip cs = cs := by
  have hStart : stripStart cs = cs := by
    cases cs with
    | nil => rfl
    | cons c cs => exact stripStart_cons (hFirst c rfl) cs
  rw [strip, hStart]
  rcases List.eq_nil_or_concat cs with rfl | ⟨front, last, rfl⟩
  · rfl
  · rw [List.concat_eq_append] at hLast ⊢
    exact stripEnd_concat (hLast last List.getLast?_concat) front

/-- What is left of a stripped text is a part of it. -/
theorem strip_isInfix (cs : List Char) : strip cs <:+: cs := by
  have hEnd : strip cs <+: stripStart cs := by
    rw [strip, stripEnd, ← List.reverse_suffix, List.reverse_reverse]
    exact List.dropWhile_suffix isBlank
  exact hEnd.isInfix.trans (List.dropWhile_suffix isBlank).isInfix

/-- Stripping removes a blank at the start. -/
theorem strip_cons_blank {c : Char} (hBlank : isBlank c = true) (cs : List Char) : strip (c :: cs) = strip cs := by
  rw [strip, strip, stripStart_cons_blank hBlank]

/-- Stripping removes a blank at the end. -/
theorem strip_concat_blank {c : Char} (hBlank : isBlank c = true) (cs : List Char) :
    strip (cs ++ [c]) = strip cs := by
  induction cs with
  | nil => rw [List.nil_append, strip_cons_blank hBlank]
  | cons first cs ih =>
      cases hFirst : isBlank first with
      | true => rw [List.cons_append, strip_cons_blank hFirst, strip_cons_blank hFirst, ih]
      | false =>
          rw [strip, strip, List.cons_append, stripStart_cons hFirst, stripStart_cons hFirst, ← List.cons_append,
            stripEnd_concat_blank hBlank]

/-- The blanks at the start of a text belong to no word. -/
theorem words_stripStart (cs : List Char) : words (stripStart cs) = words cs := by
  induction cs with
  | nil => rfl
  | cons c cs ih =>
      cases hBlank : isBlank c with
      | true =>
          rw [stripStart_cons_blank hBlank, ih, words_cons_blank hBlank]
      | false => rw [stripStart_cons hBlank]

/-- Stripping removes the blanks around a text. -/
theorem strip_surrounded {front back : List Char} (hFront : ∀ c ∈ front, isBlank c = true)
    (hBack : ∀ c ∈ back, isBlank c = true) (cs : List Char) : strip (front ++ (cs ++ back)) = strip cs := by
  have hEnd : ∀ front, strip (front ++ back) = strip front := by
    induction back with
    | nil => exact fun front => congrArg strip (List.append_nil front)
    | cons c back ih =>
        rw [List.forall_mem_cons] at hBack
        intro front
        rw [List.append_cons, ih hBack.2, strip_concat_blank hBack.1]
  rw [strip, stripStart, List.dropWhile_append_of_pos hFront]
  exact hEnd cs

/-- Stripping a text that lost the blanks at its start. -/
theorem strip_stripStart (cs : List Char) : strip (stripStart cs) = strip cs := by
  induction cs with
  | nil => rfl
  | cons c cs ih =>
      cases hBlank : isBlank c with
      | true => rw [stripStart_cons_blank hBlank, strip_cons_blank hBlank, ih]
      | false => rw [stripStart_cons hBlank]

/-- Stripping a text that lost the blanks at its end. -/
theorem strip_stripEnd (cs : List Char) : strip (stripEnd cs) = strip cs := by
  induction cs using List.reverseRecOn with
  | nil => rfl
  | append_singleton cs c ih =>
      cases hBlank : isBlank c with
      | true => rw [stripEnd_concat_blank hBlank, strip_concat_blank hBlank, ih]
      | false => rw [stripEnd_concat hBlank]

/-- A stripped text is stripped already. -/
theorem strip_strip (cs : List Char) : strip (strip cs) = strip cs := by
  calc strip (strip cs) = strip (stripStart cs) := strip_stripEnd (stripStart cs)
    _ = strip cs := strip_stripStart cs

/-- Stripping brings in no characters. -/
theorem strip_subset (cs : List Char) : strip cs ⊆ cs :=
  (strip_isInfix cs).subset

/-- A text in parentheses is stripped already. -/
theorem strip_enclosed (inner : List Char) :
    strip ('(' :: (inner ++ [')'])) = '(' :: (inner ++ [')']) :=
  strip_between (by decide) (by decide) inner

/-! ## Lines -/

theorem splitAt_of_notMem {separator : Char} {cs : List Char} (hNone : separator ∉ cs) :
    splitAt separator cs = [cs] := by
  induction cs with
  | nil => rfl
  | cons c cs ih =>
      rw [List.mem_cons, not_or] at hNone
      rw [splitAt, if_neg (Ne.symm hNone.1), ih hNone.2]

/-- A separator separates pieces. -/
theorem splitAt_append_separator (separator : Char) (before after : List Char) :
    splitAt separator (before ++ separator :: after) =
      splitAt separator before ++ splitAt separator after := by
  induction before with
  | nil => rw [List.nil_append, splitAt.eq_2, if_pos rfl, splitAt.eq_1, List.singleton_append]
  | cons c before ih =>
      rw [List.cons_append, splitAt, splitAt, ih]
      split
      · rfl
      · obtain ⟨piece, pieces, hPieces⟩ := List.exists_cons_of_ne_nil (splitAt_ne_nil separator before)
        rw [hPieces]
        rfl

theorem lines_cons_lineFeed (cs : List Char) : lines ('\n' :: cs) = [] :: lines cs :=
  rfl

theorem lines_concat_lineFeed (cs : List Char) : lines (cs ++ ['\n']) = lines cs ++ [[]] :=
  splitAt_append_separator '\n' cs []

/-- Another character at the start belongs to the first line. -/
theorem lines_cons {c : Char} (hOther : c ≠ '\n') {cs line : List Char} {rest : List (List Char)}
    (hLines : lines cs = line :: rest) : lines (c :: cs) = (c :: line) :: rest := by
  rw [lines] at hLines
  rw [lines, splitAt, if_neg hOther, hLines]

/-- Another character at the end belongs to the last line. -/
theorem lines_concat {c : Char} (hOther : c ≠ '\n') (cs : List Char) :
    ∃ rest line, lines cs = rest ++ [line] ∧ lines (cs ++ [c]) = rest ++ [line ++ [c]] := by
  induction cs with
  | nil => exact ⟨[], [], rfl, splitAt_of_notMem (by simpa using hOther.symm)⟩
  | cons first cs ih =>
      obtain ⟨rest, line, hLines, hMore⟩ := ih
      by_cases hFeed : first = '\n'
      · refine ⟨[] :: rest, line, ?_, ?_⟩
        · rw [hFeed, lines_cons_lineFeed, hLines, List.cons_append]
        · rw [hFeed, List.cons_append, lines_cons_lineFeed, hMore, List.cons_append]
      · cases rest with
        | nil => exact ⟨[], first :: line, lines_cons hFeed hLines, lines_cons hFeed hMore⟩
        | cons head rest => exact ⟨(first :: head) :: rest, line, lines_cons hFeed hLines, lines_cons hFeed hMore⟩

/-- The line feeds among the blanks that a text begins with. -/
def leadingFeeds (cs : List Char) : Nat :=
  (cs.takeWhile isBlank).count '\n'

/-- A blank that is no line feed changes no stripped line when it comes first. -/
theorem map_strip_lines_cons {c : Char} (hBlank : isBlank c = true) (hOther : c ≠ '\n') (cs : List Char) :
    (lines (c :: cs)).map strip = (lines cs).map strip := by
  obtain ⟨line, rest, hLines⟩ := List.exists_cons_of_ne_nil (splitAt_ne_nil '\n' cs)
  rw [lines_cons hOther hLines, lines, hLines, List.map_cons, List.map_cons, strip_cons_blank hBlank]

/-- A blank that is no line feed changes no stripped line when it comes last. -/
theorem map_strip_lines_concat {c : Char} (hBlank : isBlank c = true) (hOther : c ≠ '\n') (cs : List Char) :
    (lines (cs ++ [c])).map strip = (lines cs).map strip := by
  obtain ⟨rest, line, hLines, hMore⟩ := lines_concat hOther cs
  rw [hMore, hLines, List.map_append, List.map_append, List.map_singleton, List.map_singleton,
    strip_concat_blank hBlank]

/-- Taking away the blanks at the start takes away an empty stripped line for each line feed among them. -/
theorem map_strip_lines_stripStart (cs : List Char) :
    (lines cs).map strip = List.replicate (leadingFeeds cs) [] ++ (lines (stripStart cs)).map strip := by
  induction cs with
  | nil => rfl
  | cons c cs ih =>
      cases hBlank : isBlank c with
      | false =>
          rw [stripStart_cons hBlank, leadingFeeds, List.takeWhile_cons_of_neg (by simp [hBlank])]
          rfl
      | true =>
          rw [stripStart_cons_blank hBlank, leadingFeeds, List.takeWhile_cons_of_pos hBlank]
          by_cases hFeed : c = '\n'
          · rw [hFeed, lines_cons_lineFeed, List.map_cons, ih, List.count_cons_self, List.replicate_succ]
            rfl
          · rw [map_strip_lines_cons hBlank hFeed, ih, List.count_cons_of_ne hFeed]
            rfl

/-- Taking away the blanks at the end takes away empty stripped lines. -/
theorem map_strip_lines_stripEnd (cs : List Char) :
    ∃ count, (lines cs).map strip = (lines (stripEnd cs)).map strip ++ List.replicate count [] := by
  induction cs using List.reverseRecOn with
  | nil => exact ⟨0, rfl⟩
  | append_singleton cs c ih =>
      obtain ⟨count, hCount⟩ := ih
      cases hBlank : isBlank c with
      | false => exact ⟨0, by rw [stripEnd_concat hBlank, List.replicate_zero, List.append_nil]⟩
      | true =>
          rw [stripEnd_concat_blank hBlank]
          by_cases hFeed : c = '\n'
          · refine ⟨count + 1, ?_⟩
            rw [hFeed, lines_concat_lineFeed, List.map_append, hCount, List.append_assoc, List.replicate_succ']
            rfl
          · exact ⟨count, by rw [map_strip_lines_concat hBlank hFeed, hCount]⟩

/-- Stripping a text takes away empty stripped lines: at the start, one for each line feed among the blanks there. -/
theorem map_strip_lines (cs : List Char) :
    ∃ count, (lines cs).map strip =
      List.replicate (leadingFeeds cs) [] ++ (lines (strip cs)).map strip ++ List.replicate count [] := by
  obtain ⟨count, hCount⟩ := map_strip_lines_stripEnd (stripStart cs)
  exact ⟨count, by rw [map_strip_lines_stripStart, hCount, ← List.append_assoc, strip]⟩

/-- Lines that each end in a line feed; the last line feed is followed by an empty line. -/
theorem lines_flatMap {texts : List (List Char)} (hNone : ∀ text ∈ texts, '\n' ∉ text) :
    lines (texts.flatMap (· ++ ['\n'])) = texts ++ [[]] := by
  induction texts with
  | nil => rfl
  | cons text texts ih =>
      have hRest := ih fun other hMem => hNone other (List.mem_cons_of_mem text hMem)
      rw [lines] at hRest
      rw [List.flatMap_cons, List.append_assoc, List.singleton_append, lines, splitAt_append_separator, hRest,
        splitAt_of_notMem (hNone text List.mem_cons_self)]
      rfl

/-- Joining pieces of which the last one is empty ends each of the others in a separator. -/
theorem intercalate_concat_nil (separator : List Char) (texts : List (List Char)) :
    separator.intercalate (texts ++ [[]]) = texts.flatMap (· ++ separator) := by
  induction texts with
  | nil => rfl
  | cons text texts ih =>
      obtain ⟨next, rest, hRest⟩ := List.exists_cons_of_ne_nil
        (List.append_ne_nil_of_right_ne_nil texts (List.cons_ne_nil [] []))
      rw [List.cons_append, hRest, List.intercalate_cons_cons, ← hRest, ih, List.flatMap_cons]

/-- Lines whose first and last characters are no blanks are found again after the last line feed is stripped. -/
theorem lines_strip_flatMap {texts : List (List Char)} (hNone : ∀ text ∈ texts, '\n' ∉ text) {first last : Char}
    {inner : List Char} (hShape : texts.flatMap (· ++ ['\n']) = first :: (inner ++ [last]) ++ ['\n'])
    (hFirst : isBlank first = false) (hLast : isBlank last = false) :
    lines (strip (texts.flatMap (· ++ ['\n']))) = texts := by
  have hStrip : strip (texts.flatMap (· ++ ['\n'])) = first :: (inner ++ [last]) := by
    rw [hShape, strip_concat_blank (by decide), strip_between hFirst hLast]
  have hLines := lines_flatMap hNone
  rw [hShape, ← hStrip, lines, splitAt_append_separator] at hLines
  exact List.append_cancel_right hLines

/-! ## Pieces -/

theorem join_cons_cons (separator piece next : List Char) (pieces : List (List Char)) :
    join separator (piece :: next :: pieces) = piece ++ separator ++ join separator (next :: pieces) :=
  rfl

/-- Joining the pieces of a text with the separator gives the text back. -/
theorem join_splitAt (separator : Char) (cs : List Char) : join [separator] (splitAt separator cs) = cs := by
  induction cs with
  | nil => rfl
  | cons c cs ih =>
      obtain ⟨piece, pieces, hPieces⟩ := List.exists_cons_of_ne_nil (splitAt_ne_nil separator cs)
      rw [hPieces] at ih
      rw [splitAt, hPieces]
      split
      · next hSame =>
          rw [join_cons_cons, ih, hSame]
          rfl
      · cases pieces with
        | nil => exact congrArg (c :: ·) ih
        | cons next pieces => exact congrArg (c :: ·) ih

theorem join_ne_nil {separator piece : List Char} (hSome : piece ≠ []) {pieces : List (List Char)} :
    join separator (piece :: pieces) ≠ [] := by
  cases pieces with
  | nil => exact hSome
  | cons next pieces => exact List.append_ne_nil_of_left_ne_nil (List.append_ne_nil_of_left_ne_nil hSome _) _

theorem mem_join {separator : List Char} {pieces : List (List Char)} {c : Char} (hMem : c ∈ join separator pieces) :
    c ∈ separator ∨ ∃ piece ∈ pieces, c ∈ piece := by
  induction pieces with
  | nil => exact absurd hMem List.not_mem_nil
  | cons piece pieces ih =>
      cases pieces with
      | nil => exact .inr ⟨piece, List.mem_cons_self, hMem⟩
      | cons next pieces =>
          rw [join_cons_cons, List.mem_append, List.mem_append] at hMem
          rcases hMem with (hHere | hBetween) | hLater
          · exact .inr ⟨piece, List.mem_cons_self, hHere⟩
          · exact .inl hBetween
          · exact (ih hLater).imp_right fun ⟨found, hFound, hIn⟩ => ⟨found, List.mem_cons_of_mem piece hFound, hIn⟩

theorem intercalate_map_ofList (separator : String) (pieces : List (List Char)) :
    String.intercalate separator (pieces.map String.ofList) = String.ofList (join separator.toList pieces) := by
  induction pieces with
  | nil => rfl
  | cons piece pieces ih =>
      cases pieces with
      | nil => exact String.intercalate_singleton
      | cons next pieces =>
          rw [List.map_cons] at ih
          rw [List.map_cons, List.map_cons, String.intercalate_cons_cons, ih, join_cons_cons, String.ofList_append,
            String.ofList_append, String.ofList_toList]

/-- If all blanks of a text are spaces, its words are the pieces between spaces that are not empty. -/
theorem words_eq_filter_splitAt {cs : List Char} (hBlanks : ∀ c ∈ cs, isBlank c = true → c = ' ') :
    words cs = (splitAt ' ' cs).filter (· ≠ []) := by
  by_cases hSpace : ' ' ∈ cs
  -- Any space of the text cuts both lists, so none needs to be the first one.
  · obtain ⟨before, after, rfl⟩ := List.append_of_mem hSpace
    have hBefore := words_eq_filter_splitAt fun c hMem => hBlanks c (List.mem_append_left _ hMem)
    have hAfter := words_eq_filter_splitAt fun c hMem =>
      hBlanks c (List.mem_append_right before (List.mem_cons_of_mem ' ' hMem))
    rw [words_append_blank (by decide), splitAt_append_separator, List.filter_append, hBefore, hAfter]
  · rw [splitAt_of_notMem hSpace]
    cases cs with
    | nil => rfl
    | cons c cs =>
        refine words_of_not_blank (List.cons_ne_nil c cs) fun d hMem => ?_
        cases hBlank : isBlank d with
        | false => rfl
        | true => exact absurd (hBlanks d hMem hBlank ▸ hMem) hSpace
termination_by cs.length

end Text
end PlanLogic
