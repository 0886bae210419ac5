import PlanLogic.PlanLine
import PlanLogic.Proofs.Decimal.Wholes
import PlanLogic.Proofs.Printing.RoundTrip
import PlanLogic.Proofs.Text.Lowercase
import PlanLogic.Proofs.Text.Words
import Mathlib.Data.List.Chain

/-!
# The normal form of plan lines

A line is reduced in steps: to words with single spaces between them, then without the spaces after opening
parentheses, and then without those before closing ones.  Each step takes away single spaces only, so it keeps apart
what the steps before it have kept apart, and a reduced line is its own reduced form.  The action of a line that was
read is a part of the reduced line.  So it is in that form too, and written between parentheses with its time it is
read again as it was.
-/

namespace PlanLogic

/-- A reason for refusing another text. -/
def PlanLineError.about (text : String) : PlanLineError → PlanLineError
  | .time found => .time found
  | .notAction _ => .notAction text

namespace PlanLine

/-! ## Texts of single spaces -/

/-- No two spaces stand side by side. -/
def Single (c d : Char) : Prop :=
  ¬ (c = ' ' ∧ d = ' ')

/-- Nor does a space stand after an opening parenthesis. -/
def Opening (c d : Char) : Prop :=
  Single c d ∧ ¬ (c = '(' ∧ d = ' ')

/-- Nor does a space stand before a closing parenthesis. -/
def Tight (c d : Char) : Prop :=
  Opening c d ∧ ¬ (c = ' ' ∧ d = ')')

theorem Opening.single {c d : Char} (hOpening : Opening c d) : Single c d :=
  hOpening.1

theorem Tight.opening {c d : Char} (hTight : Tight c d) : Opening c d :=
  hTight.1

/-- A text whose blanks are spaces inside of it, and whose neighbours are related. -/
structure IsSpaced (related : Char → Char → Prop) (cs : List Char) : Prop where
  blank : ∀ c ∈ cs, Text.isBlank c = true → c = ' '
  first : ∀ c ∈ cs.head?, c ≠ ' '
  last : ∀ c ∈ cs.getLast?, c ≠ ' '
  neighbours : cs.IsChain related

theorem IsSpaced.mono {related other : Char → Char → Prop} (hMore : ∀ {c d}, related c d → other c d) {cs : List Char}
    (hSpaced : IsSpaced related cs) : IsSpaced other cs :=
  ⟨hSpaced.blank, hSpaced.first, hSpaced.last, hSpaced.neighbours.imp fun _ _ => hMore⟩

/-- Neighbours that are no spaces may stand side by side. -/
theorem Tight.of_ne {c d : Char} (hLeft : c ≠ ' ') (hRight : d ≠ ' ') : Tight c d :=
  ⟨⟨fun hBoth => hLeft hBoth.1, fun hBoth => hRight hBoth.2⟩, fun hBoth => hLeft hBoth.1⟩

/-- A text without blanks. -/
theorem isSpaced_of_not_blank {cs : List Char} (hChars : ∀ c ∈ cs, Text.isBlank c = false) : IsSpaced Tight cs := by
  have hOther : ∀ c ∈ cs, c ≠ ' ' := by
    rintro c hMem rfl
    exact absurd (hChars ' ' hMem) (by decide)
  refine ⟨fun c hMem hBlank => ?_, fun c hMem => hOther c (List.mem_of_mem_head? hMem),
    fun c hMem => hOther c (List.mem_of_getLast? hMem), ?_⟩
  · rw [hChars c hMem] at hBlank
    exact absurd hBlank Bool.false_ne_true
  · exact (List.pairwise_of_forall_mem_list fun c hLeft d hRight =>
      Tight.of_ne (hOther c hLeft) (hOther d hRight)).isChain

/-- A space may stand between two texts that are not empty. -/
theorem isSpaced_append_space_iff {front back : List Char} :
    IsSpaced Single (front ++ ' ' :: back) ↔
      (front ≠ [] ∧ IsSpaced Single front) ∧ (back ≠ [] ∧ IsSpaced Single back) := by
  have hFirst (hSome : front ≠ []) : (front ++ ' ' :: back).head? = front.head? :=
    List.head?_append_of_ne_nil front hSome
  have hLast (hSome : back ≠ []) : (front ++ ' ' :: back).getLast? = back.getLast? := by
    rw [List.getLast?_append_of_ne_nil front (List.cons_ne_nil _ _)]
    obtain ⟨c, cs, rfl⟩ := List.exists_cons_of_ne_nil hSome
    exact List.getLast?_cons_cons
  constructor
  · rintro ⟨hBlank, hStart, hEnd, hChain⟩
    have hFront : front ≠ [] := by
      rintro rfl
      exact hStart ' ' rfl rfl
    have hBack : back ≠ [] := by
      rintro rfl
      exact hEnd ' ' List.getLast?_concat rfl
    rw [List.forall_mem_append, List.forall_mem_cons] at hBlank
    rw [List.isChain_append, List.isChain_cons] at hChain
    obtain ⟨hFrontChain, ⟨hAfter, hBackChain⟩, hBefore⟩ := hChain
    rw [hFirst hFront] at hStart
    rw [hLast hBack] at hEnd
    exact ⟨⟨hFront, hBlank.1, hStart, fun c hMem hSpace => hBefore c hMem ' ' rfl ⟨hSpace, rfl⟩, hFrontChain⟩,
      hBack, hBlank.2.2, fun c hMem hSpace => hAfter c hMem ⟨rfl, hSpace⟩, hEnd, hBackChain⟩
  · rintro ⟨⟨hFront, hBefore⟩, hBack, hAfter⟩
    refine ⟨?_, hFirst hFront ▸ hBefore.first, hLast hBack ▸ hAfter.last, ?_⟩
    · rw [List.forall_mem_append, List.forall_mem_cons]
      exact ⟨hBefore.blank, fun _ => rfl, hAfter.blank⟩
    · rw [List.isChain_append, List.isChain_cons]
      refine ⟨hBefore.neighbours, ⟨fun c hMem hBoth => hAfter.first c hMem hBoth.2, hAfter.neighbours⟩, ?_⟩
      exact fun c hMem d _ hBoth => hBefore.last c hMem hBoth.1

/-- Words with single spaces between them. -/
theorem isSpaced_join {words : List (List Char)}
    (hWords : ∀ word ∈ words, word ≠ [] ∧ ∀ c ∈ word, Text.isBlank c = false) :
    IsSpaced Single (Text.join [' '] words) := by
  induction words with
  | nil => exact ⟨fun _ hNone => absurd hNone List.not_mem_nil, nofun, nofun, .nil⟩
  | cons word words ih =>
      rw [List.forall_mem_cons] at hWords
      obtain ⟨⟨hSome, hChars⟩, hMore⟩ := hWords
      have hWord := (isSpaced_of_not_blank hChars).mono fun hTight => hTight.opening.single
      cases words with
      | nil => exact hWord
      | cons next words =>
          rw [Text.join_cons_cons, List.append_assoc, List.singleton_append, isSpaced_append_space_iff]
          exact ⟨⟨hSome, hWord⟩, Text.join_ne_nil (hMore next List.mem_cons_self).1, ih hMore⟩

/-- The pieces between the spaces of such a text are not empty. -/
theorem nil_notMem_splitAt {cs : List Char} (hSpaced : IsSpaced Single cs) (hSome : cs ≠ []) :
    [] ∉ Text.splitAt ' ' cs := by
  by_cases hSpace : ' ' ∈ cs
  · obtain ⟨before, after, rfl⟩ := List.append_of_mem hSpace
    obtain ⟨⟨hFront, hBefore⟩, hBack, hAfter⟩ := isSpaced_append_space_iff.mp hSpaced
    rw [Text.splitAt_append_separator]
    exact List.not_mem_append (nil_notMem_splitAt hBefore hFront) (nil_notMem_splitAt hAfter hBack)
  · rw [Text.splitAt_of_notMem hSpace, List.mem_singleton]
    exact hSome.symm
termination_by cs.length

/-- Joining the words of such a text gives the text back. -/
theorem join_words {cs : List Char} (hSpaced : IsSpaced Single cs) : Text.join [' '] (Text.words cs) = cs := by
  cases cs with
  | nil => rfl
  | cons c cs =>
      have hPieces := nil_notMem_splitAt hSpaced (List.cons_ne_nil c cs)
      rw [Text.words_eq_filter_splitAt hSpaced.blank, List.filter_eq_self.mpr, Text.join_splitAt]
      intro piece hMem
      rw [decide_eq_true_eq]
      rintro rfl
      exact hPieces hMem

/-! ## Spaces at parentheses -/

theorem tightenAfterOpening_sublist (cs : List Char) : (tightenAfterOpening cs).Sublist cs := by
  fun_induction tightenAfterOpening cs with
  | case1 cs ih => exact (ih.trans (List.sublist_cons_self _ _)).cons_cons _
  | case2 c cs _ ih => exact ih.cons_cons c
  | case3 => exact .slnil

theorem tightenBeforeClosing_sublist (cs : List Char) : (tightenBeforeClosing cs).Sublist cs := by
  fun_induction tightenBeforeClosing cs with
  | case1 cs ih => exact (ih.cons_cons _).trans (List.sublist_cons_self _ _)
  | case2 c cs _ ih => exact ih.cons_cons c
  | case3 => exact .slnil

theorem head?_tightenAfterOpening (cs : List Char) : (tightenAfterOpening cs).head? = cs.head? := by
  fun_cases tightenAfterOpening cs with
  | case1 => rfl
  | case2 => rfl
  | case3 => rfl

/-- Only a space may get lost at the start of a text. -/
theorem head?_tightenBeforeClosing (cs : List Char) :
    (tightenBeforeClosing cs).head? = cs.head? ∨
      cs.head? = some ' ' ∧ (tightenBeforeClosing cs).head? = some ')' := by
  fun_cases tightenBeforeClosing cs with
  | case1 => exact .inr ⟨rfl, rfl⟩
  | case2 => exact .inl rfl
  | case3 => exact .inl rfl

theorem getLast?_cons_congr {front back : List Char} (hLast : front.getLast? = back.getLast?) (c : Char) :
    (c :: front).getLast? = (c :: back).getLast? := by
  rw [List.getLast?_cons, hLast, List.getLast?_cons]

theorem last_of_cons {c : Char} {cs : List Char} (hLast : ∀ d ∈ (c :: cs).getLast?, d ≠ ' ') :
    ∀ d ∈ cs.getLast?, d ≠ ' ' := by
  intro d hMem
  rw [List.getLast?_cons, Option.mem_def.mp hMem] at hLast
  exact hLast d rfl

theorem getLast?_tightenAfterOpening {cs : List Char} (hLast : ∀ c ∈ cs.getLast?, c ≠ ' ') :
    (tightenAfterOpening cs).getLast? = cs.getLast? := by
  fun_induction tightenAfterOpening cs with
  | case1 cs ih =>
      cases cs with
      -- Only here the last character would be taken away, and it is no space.
      | nil => exact absurd rfl (hLast ' ' rfl)
      | cons c cs => exact getLast?_cons_congr (ih (last_of_cons (last_of_cons hLast))) '('
  | case2 c cs _ ih => exact getLast?_cons_congr (ih (last_of_cons hLast)) c
  | case3 => rfl

theorem getLast?_tightenBeforeClosing {cs : List Char} (hLast : ∀ c ∈ cs.getLast?, c ≠ ' ') :
    (tightenBeforeClosing cs).getLast? = cs.getLast? := by
  fun_induction tightenBeforeClosing cs with
  | case1 cs ih => exact getLast?_cons_congr (ih (last_of_cons (last_of_cons hLast))) ')'
  | case2 c cs _ ih => exact getLast?_cons_congr (ih (last_of_cons hLast)) c
  | case3 => rfl

theorem isChain_tightenAfterOpening {cs : List Char} (hChain : cs.IsChain Single) :
    (tightenAfterOpening cs).IsChain Opening := by
  fun_induction tightenAfterOpening cs with
  | case1 cs ih =>
      -- The space that is taken away kept other spaces away.
      obtain ⟨hNext, hRest⟩ := List.isChain_cons.mp hChain.tail
      rw [List.isChain_cons, head?_tightenAfterOpening]
      refine ⟨fun c hMem => ?_, ih hRest⟩
      exact ⟨fun hBoth => hNext c hMem ⟨rfl, hBoth.2⟩, fun hBoth => hNext c hMem ⟨rfl, hBoth.2⟩⟩
  | case2 c cs hOther ih =>
      obtain ⟨hNext, hRest⟩ := List.isChain_cons.mp hChain
      rw [List.isChain_cons, head?_tightenAfterOpening]
      refine ⟨fun d hMem => ⟨hNext d hMem, ?_⟩, ih hRest⟩
      rintro ⟨hParenthesis, rfl⟩
      obtain ⟨rest, hRest⟩ := List.head?_eq_some_iff.mp hMem
      exact hOther rest hParenthesis hRest
  | case3 => exact .nil

theorem isChain_tightenBeforeClosing {cs : List Char} (hChain : cs.IsChain Opening) :
    (tightenBeforeClosing cs).IsChain Tight := by
  fun_induction tightenBeforeClosing cs with
  | case1 cs ih =>
      rw [List.isChain_cons]
      refine ⟨fun c _ => ⟨⟨?_, ?_⟩, ?_⟩, ih hChain.tail.tail⟩
      all_goals exact fun hBoth => absurd hBoth.1 (by decide)
  | case2 c cs hOther ih =>
      obtain ⟨hNext, hRest⟩ := List.isChain_cons.mp hChain
      rw [List.isChain_cons]
      refine ⟨fun d hMem => ?_, ih hRest⟩
      obtain hSame | ⟨hSpace, hClosing⟩ := head?_tightenBeforeClosing cs
      · rw [hSame] at hMem
        refine ⟨hNext d hMem, ?_⟩
        rintro ⟨hLeft, rfl⟩
        obtain ⟨rest, hRest⟩ := List.head?_eq_some_iff.mp hMem
        exact hOther rest hLeft hRest
      · -- The space that was there kept another one away.
        obtain rfl := Option.some.inj (hClosing.symm.trans hMem)
        have hLeft : c ≠ ' ' := fun hLeft => (hNext ' ' hSpace).single ⟨hLeft, rfl⟩
        exact Tight.of_ne hLeft (by decide)
  | case3 => exact .nil

theorem isSpaced_tightenAfterOpening {cs : List Char} (hSpaced : IsSpaced Single cs) :
    IsSpaced Opening (tightenAfterOpening cs) where
  blank c hMem := hSpaced.blank c ((tightenAfterOpening_sublist cs).subset hMem)
  first := by
    rw [head?_tightenAfterOpening]
    exact hSpaced.first
  last := by
    rw [getLast?_tightenAfterOpening hSpaced.last]
    exact hSpaced.last
  neighbours := isChain_tightenAfterOpening hSpaced.neighbours

theorem isSpaced_tightenBeforeClosing {cs : List Char} (hSpaced : IsSpaced Opening cs) :
    IsSpaced Tight (tightenBeforeClosing cs) where
  blank c hMem := hSpaced.blank c ((tightenBeforeClosing_sublist cs).subset hMem)
  first := by
    obtain hSame | ⟨hSpace, -⟩ := head?_tightenBeforeClosing cs
    · rw [hSame]
      exact hSpaced.first
    · exact absurd rfl (hSpaced.first ' ' hSpace)
  last := by
    rw [getLast?_tightenBeforeClosing hSpaced.last]
    exact hSpaced.last
  neighbours := isChain_tightenBeforeClosing hSpaced.neighbours

/-- A text without spaces after opening parentheses stays as it is. -/
theorem tightenAfterOpening_of_isChain {cs : List Char} (hChain : cs.IsChain Opening) :
    tightenAfterOpening cs = cs := by
  fun_induction tightenAfterOpening cs with
  | case1 cs _ => exact absurd ⟨rfl, rfl⟩ ((List.isChain_cons.mp hChain).1 ' ' rfl).2
  | case2 c cs _ ih => rw [ih hChain.tail]
  | case3 => rfl

/-- A text without spaces before closing parentheses stays as it is. -/
theorem tightenBeforeClosing_of_isChain {cs : List Char} (hChain : cs.IsChain Tight) :
    tightenBeforeClosing cs = cs := by
  fun_induction tightenBeforeClosing cs with
  | case1 cs _ => exact absurd ⟨rfl, rfl⟩ ((List.isChain_cons.mp hChain).1 ')' rfl).2
  | case2 c cs _ ih => rw [ih hChain.tail]
  | case3 => rfl

/-! ## The reduced form -/

/-- Stripping leaves a text alone that has no space at its ends. -/
theorem IsSpaced.strip {related : Char → Char → Prop} {cs : List Char} (hSpaced : IsSpaced related cs) :
    Text.strip cs = cs := by
  have hSolid {c : Char} (hMem : c ∈ cs) (hOther : c ≠ ' ') : Text.isBlank c = false := by
    cases hBlank : Text.isBlank c with
    | false => rfl
    | true => exact absurd (hSpaced.blank c hMem hBlank) hOther
  exact Text.strip_of_ends (fun c hMem => hSolid (List.mem_of_mem_head? hMem) (hSpaced.first c hMem))
    (fun c hMem => hSolid (List.mem_of_getLast? hMem) (hSpaced.last c hMem))

/-- Two such texts may stand side by side. -/
theorem IsSpaced.append {front back : List Char} (hFront : IsSpaced Tight front) (hBack : IsSpaced Tight back) :
    IsSpaced Tight (front ++ back) where
  blank := List.forall_mem_append.mpr ⟨hFront.blank, hBack.blank⟩
  first := by
    intro c hMem
    rw [List.head?_append, Option.mem_def, Option.or_eq_some_iff] at hMem
    exact hMem.elim (hFront.first c) fun hNext => hBack.first c hNext.2
  last := by
    intro c hMem
    rw [List.getLast?_append, Option.mem_def, Option.or_eq_some_iff] at hMem
    exact hMem.elim (hBack.last c) fun hBefore => hFront.last c hBefore.2
  neighbours := hFront.neighbours.append hBack.neighbours fun c hLeft d hRight =>
    Tight.of_ne (hFront.last c hLeft) (hBack.first d hRight)

/-- A text that is its own reduced form: its blanks are single spaces inside of it, not at parentheses, and its
characters are in lower case. -/
structure IsReduced (cs : List Char) : Prop where
  spaced : IsSpaced Tight cs
  lower : ∀ c ∈ cs, Text.IsLower c

/-- The reduced form of a line is reduced. -/
theorem isReduced_reduce (cs : List Char) : IsReduced (reduce cs) := by
  have hWords : ∀ word ∈ Text.words (Text.lowercase (Text.strip cs)), word ≠ [] ∧ ∀ c ∈ word, Text.isBlank c = false :=
    fun word hMem => ⟨(Text.mem_words hMem).1, fun c hIn => ((Text.mem_words hMem).2 c hIn).1⟩
  refine ⟨isSpaced_tightenBeforeClosing (isSpaced_tightenAfterOpening (isSpaced_join hWords)), fun c hMem => ?_⟩
  have hJoined := (tightenAfterOpening_sublist _).subset ((tightenBeforeClosing_sublist _).subset hMem)
  rcases Text.mem_join hJoined with hSpace | ⟨word, hWord, hIn⟩
  · rw [List.mem_singleton.mp hSpace]
    decide +kernel
  · exact Text.isLower_of_mem_lowercase ((Text.mem_words hWord).2 c hIn).2

/-- A reduced text is its own reduced form. -/
theorem IsReduced.reduce {cs : List Char} (hReduced : IsReduced cs) : PlanLine.reduce cs = cs := by
  rw [PlanLine.reduce, hReduced.spaced.strip, Text.lowercase_of_isLower hReduced.lower,
    join_words (hReduced.spaced.mono fun hTight => hTight.opening.single),
    tightenAfterOpening_of_isChain (hReduced.spaced.mono Tight.opening).neighbours,
    tightenBeforeClosing_of_isChain hReduced.spaced.neighbours]

/-- What stands between parentheses in a reduced text is reduced. -/
theorem IsReduced.inner {cs inner : List Char} (hReduced : IsReduced cs) (hInner : '(' :: (inner ++ [')']) <:+: cs) :
    IsReduced inner := by
  have hSubset : inner ⊆ cs := fun c hMem =>
    hInner.subset (List.mem_cons_of_mem '(' (List.mem_append_left _ hMem))
  have hEnclosed := List.IsChain.infix hReduced.spaced.neighbours hInner
  obtain ⟨hFirst, hChain⟩ := List.isChain_cons.mp hEnclosed
  obtain ⟨hNeighbours, -, hLast⟩ := List.isChain_append.mp hChain
  refine ⟨⟨fun c hMem => hReduced.spaced.blank c (hSubset hMem), ?_, ?_, hNeighbours⟩,
    fun c hMem => hReduced.lower c (hSubset hMem)⟩
  · intro c hMem hSpace
    have hNext : c ∈ (inner ++ [')']).head? := by
      rw [List.head?_append, Option.mem_def.mp hMem]
      rfl
    exact (hFirst c hNext).opening.2 ⟨rfl, hSpace⟩
  · exact fun c hMem hSpace => (hLast c hMem ')' rfl).2 ⟨hSpace, rfl⟩

/-! ## Actions and times -/

theorem inside?_eq_some_iff {cs expression : List Char} :
    inside? cs = some expression ↔ ∃ inner, cs = '(' :: (inner ++ [')']) ∧ expression = Text.strip inner := by
  constructor
  · intro hInside
    unfold inside? at hInside
    split at hInside
    · split at hInside
      · next rest hLast =>
          refine ⟨rest.dropLast, ?_, (Option.some.inj hInside).symm⟩
          rw [List.dropLast_append_getLast? ')' hLast]
      · exact absurd hInside (Option.some_ne_none _).symm
    · exact absurd hInside (Option.some_ne_none _).symm
  · rintro ⟨inner, rfl, rfl⟩
    rw [inside?, List.getLast?_concat, if_pos rfl, List.dropLast_concat]

/-- The action of a line has no colon and stands at its start. -/
theorem splitTime_fst (cs : List Char) : (splitTime cs).1 <+: cs ∧ ':' ∉ (splitTime cs).1 := by
  have hTaken : ':' ∉ cs.takeWhile (· != ':') := fun hMem => absurd (List.mem_takeWhile_imp hMem) (by decide)
  unfold splitTime
  split
  · next hNone =>
      refine ⟨List.prefix_refl cs, ?_⟩
      rwa [← List.takeWhile_append_dropWhile (p := (· != ':')) (l := cs), hNone, List.append_nil]
  · exact ⟨List.takeWhile_prefix _, hTaken⟩

/-- The first colon of a line is followed by its time. -/
theorem splitTime_append {action : List Char} (hAction : ':' ∉ action) (time : List Char) :
    splitTime (action ++ ':' :: time) = (action, some time) := by
  have hOther : ∀ c ∈ action, (c != ':') = true := by
    intro c hMem
    rw [bne_iff_ne]
    rintro rfl
    exact hAction hMem
  rw [splitTime, List.dropWhile_append_of_pos hOther, List.takeWhile_append_of_pos hOther,
    List.dropWhile_cons_of_neg (by decide), List.takeWhile_cons_of_neg (by decide), List.append_nil]

theorem exists_inner_of_ofAction {line : String} {action : List Char} {time : Int} {plan : PlanLine}
    (hAction : ofAction line action time = .ok plan) :
    ∃ inner, action = '(' :: (inner ++ [')']) ∧ plan = ⟨String.ofList (Text.strip inner), time⟩ := by
  rw [ofAction] at hAction
  split at hAction
  · next expression hInside =>
      obtain ⟨inner, hShape, rfl⟩ := inside?_eq_some_iff.mp hInside
      exact ⟨inner, hShape, (Except.ok.inj hAction).symm⟩
  · exact absurd hAction (by simp)

/-- A line that was read has its action in parentheses, without a colon, and a time of not too many digits. -/
theorem exists_inner_of_ofText {line : String} {plan : PlanLine} (hLine : ofText line = .ok plan) :
    ∃ inner, '(' :: (inner ++ [')']) <:+: reduce line.toList ∧ ':' ∉ inner ∧
      plan.expression = String.ofList (Text.strip inner) ∧ plan.time.natAbs < 10 ^ Decimal.maxWholeDigits := by
  obtain ⟨hPrefix, hColon⟩ := splitTime_fst (reduce line.toList)
  have hInner {inner : List Char} (hShape : '(' :: (inner ++ [')']) <:+: (splitTime (reduce line.toList)).1) :
      '(' :: (inner ++ [')']) <:+: reduce line.toList ∧ ':' ∉ inner :=
    ⟨hShape.trans hPrefix.isInfix, fun hMem =>
      hColon (hShape.subset (List.mem_cons_of_mem '(' (List.mem_append_left _ hMem)))⟩
  rw [ofText] at hLine
  split at hLine
  · next action hSplit =>
      obtain ⟨inner, rfl, rfl⟩ := exists_inner_of_ofAction hLine
      rw [hSplit] at hInner
      obtain ⟨hPart, hNone⟩ := hInner List.infix_rfl
      exact ⟨inner, hPart, hNone, rfl, Nat.one_lt_pow (by decide) (by decide)⟩
  · next action time hSplit =>
      split at hLine
      · exact absurd hLine (by simp)
      · next value hValue =>
          obtain ⟨inner, hShape, rfl⟩ := exists_inner_of_ofAction hLine
          rw [hSplit] at hInner
          obtain ⟨hPart, hNone⟩ := hInner (hShape ▸ Text.strip_isInfix action)
          exact ⟨inner, hPart, hNone, rfl, Decimal.natAbs_lt_of_whole? hValue⟩

/-! ## Lines that were read -/

/-- What a line that was read says: a reduced action without a colon, and a time of not too many digits. -/
structure IsNormal (plan : PlanLine) : Prop where
  reduced : IsReduced plan.expression.toList
  noColon : ':' ∉ plan.expression.toList
  time : plan.time.natAbs < 10 ^ Decimal.maxWholeDigits

theorem isNormal_of_ofText {line : String} {plan : PlanLine} (hLine : ofText line = .ok plan) : plan.IsNormal := by
  obtain ⟨inner, hPart, hColon, hExpression, hTime⟩ := exists_inner_of_ofText hLine
  have hReduced := (isReduced_reduce line.toList).inner hPart
  rw [hReduced.spaced.strip] at hExpression
  have hSame : plan.expression.toList = inner := by rw [hExpression, String.toList_ofList]
  exact ⟨hSame ▸ hReduced, hSame ▸ hColon, hTime⟩

/-- The line of an action with its time. -/
def text (plan : PlanLine) : String :=
  "(" ++ plan.expression ++ "):" ++ toString plan.time

theorem toList_text (plan : PlanLine) :
    plan.text.toList = '(' :: (plan.expression.toList ++ [')']) ++ ':' :: (toString plan.time).toList := by
  simp [text]

theorem isReduced_of_not_blank {cs : List Char} (hBlank : ∀ c ∈ cs, Text.isBlank c = false)
    (hLower : ∀ c ∈ cs, Text.IsLower c) : IsReduced cs :=
  ⟨isSpaced_of_not_blank hBlank, hLower⟩

theorem isReduced_singleton {c : Char} (hBlank : Text.isBlank c = false) (hLower : Text.IsLower c) : IsReduced [c] :=
  isReduced_of_not_blank (List.forall_mem_singleton.mpr hBlank) (List.forall_mem_singleton.mpr hLower)

/-- The text of a whole number is reduced. -/
theorem isReduced_toString (value : Int) : IsReduced (toString value).toList := by
  have hLower : Decimal.numberChars.all (fun c => decide (Text.IsLower c)) = true := by decide +kernel
  have hNumber {c : Char} (hMem : c ∈ (toString value).toList) := Decimal.mem_numberChars_of_mem_toString hMem
  exact isReduced_of_not_blank
    (fun c hMem => (Token.isSymbolChar_iff.mp (isSymbolChar_of_mem_numberChars c (hNumber hMem))).1)
    (fun c hMem => of_decide_eq_true (List.all_eq_true.mp hLower c (hNumber hMem)))

theorem IsReduced.append {front back : List Char} (hFront : IsReduced front) (hBack : IsReduced back) :
    IsReduced (front ++ back) :=
  ⟨hFront.spaced.append hBack.spaced, List.forall_mem_append.mpr ⟨hFront.lower, hBack.lower⟩⟩

/-- The line of an action that was read is reduced. -/
theorem IsNormal.isReduced_text {plan : PlanLine} (hPlan : plan.IsNormal) : IsReduced plan.text.toList := by
  have hOpening : IsReduced ['('] := isReduced_singleton (by decide) (by decide +kernel)
  have hClosing : IsReduced [')'] := isReduced_singleton (by decide) (by decide +kernel)
  have hColon : IsReduced [':'] := isReduced_singleton (by decide) (by decide +kernel)
  rw [toList_text]
  exact (hOpening.append (hPlan.reduced.append hClosing)).append (hColon.append (isReduced_toString plan.time))

/-- The line of an action that was read is read again as it was. -/
theorem IsNormal.ofText_text {plan : PlanLine} (hPlan : plan.IsNormal) : ofText plan.text = .ok plan := by
  have hColon : ':' ∉ '(' :: (plan.expression.toList ++ [')']) := by
    simp [hPlan.noColon]
  have hInside : inside? ('(' :: (plan.expression.toList ++ [')'])) = some plan.expression.toList :=
    inside?_eq_some_iff.mpr ⟨_, rfl, hPlan.reduced.spaced.strip.symm⟩
  rw [ofText, hPlan.isReduced_text.reduce, toList_text, splitTime_append hColon]
  dsimp only
  rw [(isReduced_toString plan.time).spaced.strip, Decimal.whole?_toString hPlan.time]
  dsimp only
  rw [Text.strip_enclosed, ofAction, hInside]
  dsimp only
  rw [String.ofList_toList]

/-- The name of an action and its parameters, with single spaces between them, are all of it. -/
theorem IsNormal.intercalate_pieces {plan : PlanLine} (hPlan : plan.IsNormal) :
    String.intercalate " " (plan.name :: plan.parameters) = plan.expression := by
  obtain ⟨first, more, hPieces⟩ := List.exists_cons_of_ne_nil (Text.splitAt_ne_nil ' ' plan.expression.toList)
  have hName : plan.name = String.ofList first := by
    rw [name, pieces, hPieces]
    rfl
  have hMore : ∀ piece ∈ more, piece ≠ [] := by
    by_cases hSome : plan.expression.toList = []
    · rw [hSome, Text.splitAt] at hPieces
      obtain ⟨-, rfl⟩ := List.cons.inj hPieces
      exact fun _ hMem => absurd hMem List.not_mem_nil
    · have hNone := nil_notMem_splitAt (hPlan.reduced.spaced.mono fun hTight => hTight.opening.single) hSome
      rintro piece hMem rfl
      exact hNone (hPieces ▸ List.mem_cons_of_mem first hMem)
  have hParameters : plan.parameters = more.map String.ofList := by
    rw [parameters, pieces, hPieces]
    refine List.filter_eq_self.mpr fun piece hMem => ?_
    obtain ⟨found, hFound, rfl⟩ := List.mem_map.mp hMem
    simpa using hMore found hFound
  have hJoin : Text.join " ".toList (Text.splitAt ' ' plan.expression.toList) = plan.expression.toList :=
    Text.join_splitAt ' ' plan.expression.toList
  rw [hName, hParameters, ← List.map_cons, ← hPieces, Text.intercalate_map_ofList, hJoin, String.ofList_toList]

/-! ## Normal forms -/

/-- A line is read as its reduced form is. -/
theorem ofText_reduce (line : String) :
    ofText (String.ofList (reduce line.toList)) =
      (ofText line).mapError (PlanLineError.about (String.ofList (reduce line.toList))) := by
  have hAction (action : List Char) (time : Int) : ofAction (String.ofList (reduce line.toList)) action time =
      (ofAction line action time).mapError (PlanLineError.about (String.ofList (reduce line.toList))) := by
    rw [ofAction, ofAction]
    cases inside? action with
    | none => rfl
    | some expression => rfl
  rw [ofText, ofText, String.toList_ofList, (isReduced_reduce line.toList).reduce]
  split
  · exact hAction _ _
  · split
    · rfl
    · exact hAction _ _

/-- Plan lines have a normal form.  The expression of a line that was read has no colon, and no blanks but single spaces
inside of it, none of them at a parenthesis; its name and its parameters make it up; and between parentheses with its
time, which never has too many digits, it is read again as it was.  Reducing a line changes nothing about what is read,
or about why it is refused. -/
theorem ofText_normalForm (line : String) :
    (∀ plan, ofText line = .ok plan →
      ':' ∉ plan.expression.toList ∧ IsSpaced Tight plan.expression.toList ∧
        String.intercalate " " (plan.name :: plan.parameters) = plan.expression ∧
        ofText ("(" ++ plan.expression ++ "):" ++ toString plan.time) = .ok plan) ∧
      ofText (String.ofList (reduce line.toList)) =
        (ofText line).mapError (PlanLineError.about (String.ofList (reduce line.toList))) := by
  refine ⟨fun plan hLine => ?_, ofText_reduce line⟩
  have hPlan := isNormal_of_ofText hLine
  exact ⟨hPlan.noColon, hPlan.reduced.spaced, hPlan.intercalate_pieces, hPlan.ofText_text⟩

/-- Parentheses inside an action, several kinds of blanks, a final sigma and a time below zero. -/
theorem ofText_normalForm_nested :
    let line := "  ( MOVE\u00a0 ( R2\tΑΣ ) )\u2003: -0_07 "
    let plan : PlanLine := ⟨"move (r2 ας)", -7⟩
    ofText line = .ok plan ∧ plan.name = "move" ∧ plan.parameters = ["(r2", "ας)"] ∧
      String.intercalate " " (plan.name :: plan.parameters) = plan.expression ∧
      ofText ("(" ++ plan.expression ++ "):" ++ toString plan.time) = .ok plan ∧
      ofText (String.ofList (reduce line.toList)) = .ok plan := by
  intro line plan
  have hLine : ofText line = .ok plan := by decide +kernel
  obtain ⟨hPlan, hReduced⟩ := ofText_normalForm line
  obtain ⟨-, -, hPieces, hAgain⟩ := hPlan plan hLine
  rw [hLine] at hReduced
  exact ⟨hLine, by decide +kernel, by decide +kernel, hPieces, hAgain, hReduced⟩

end PlanLine
end PlanLogic
