import PlanLogic.Console.Standard
import PlanLogic.Proofs.Text.Lowercase
import PlanLogic.Proofs.Text.Words

/-!
# What can be printed

The plain console keeps the laws of marks.  A text without an opening bracket has only plain parts, and these never
matter for the marks around them.  A mark is cut out whole wherever it stands, unless an odd number of backslashes
stands before it; then it is a text, and the style it would switch off stays on, which is no fault.
-/

namespace PlanLogic
namespace Console

/-! ## Cutting a text into its parts -/

/-- The backslashes at the end of a text, counted on from those before it. -/
def slashesAfter (slashes : Nat) : List Char → Nat
  | [] => slashes
  | c :: cs => slashesAfter (if c = '\\' then slashes + 1 else 0) cs

theorem slashesAfter_concat_of_ne {c : Char} (hOther : c ≠ '\\') (slashes : Nat) (cs : List Char) :
    slashesAfter slashes (cs ++ [c]) = 0 := by
  induction cs generalizing slashes with
  | nil => exact if_neg hOther
  | cons d cs ih => exact ih _

theorem slashesAfter_eq_zero {cs : List Char} (hLast : cs.getLast? ≠ some '\\') : slashesAfter 0 cs = 0 := by
  rcases List.eq_nil_or_concat cs with rfl | ⟨front, last, rfl⟩
  · rfl
  · rw [List.concat_eq_append, List.getLast?_concat] at hLast
    rw [List.concat_eq_append]
    exact slashesAfter_concat_of_ne (fun hSame => hLast (congrArg some hSame)) 0 front

/-- A text without an opening bracket gives plain parts, whatever follows it. -/
theorem exists_partsFrom_append {front : List Char} (hPlain : '[' ∉ front) (slashes position : Nat)
    (rest : List Char) :
    ∃ contents : List (List Char), partsFrom 0 slashes position (front ++ rest) =
      contents.map Part.plain ++ partsFrom 0 (slashesAfter slashes front) (position + front.length) rest := by
  induction front generalizing slashes position with
  | nil => exact ⟨[], rfl⟩
  | cons c cs ih =>
      have hHere : c ≠ '[' := fun hSame => hPlain (hSame ▸ List.mem_cons_self)
      have hLater : '[' ∉ cs := fun hMem => hPlain (List.mem_cons_of_mem c hMem)
      obtain ⟨contents, hContents⟩ := ih hLater (if c = '\\' then slashes + 1 else 0) (position + 1)
      have hPosition : position + (c :: cs).length = position + 1 + cs.length := by
        rw [List.length_cons]
        omega
      rw [List.cons_append, partsFrom, slashesAfter, hPosition]
      by_cases hSlash : c = '\\'
      · simp only [if_pos hSlash] at hContents ⊢
        exact ⟨contents, hContents⟩
      · simp only [if_neg hSlash, if_neg hHere] at hContents ⊢
        rw [hContents]
        exact ⟨_ :: contents, rfl⟩

/-- A text between brackets that is a mark. -/
structure IsMark (start : Char) (rest : List Char) : Prop where
  starts : startsMark start = true
  within : ∀ c ∈ rest, (c != '[' && c != ']') = true

theorem IsMark.mark? {start : Char} {rest : List Char} (hMark : IsMark start rest) (after : List Char) :
    Console.mark? (start :: rest ++ ']' :: after) = some (start :: rest) := by
  have hTaken : (rest ++ ']' :: after).takeWhile (fun c => c != '[' && c != ']') = rest := by
    rw [List.takeWhile_append_of_pos hMark.within, List.takeWhile_cons_of_neg (by decide), List.append_nil]
  rw [List.cons_append, Console.mark?, hTaken, List.drop_left, List.head?_cons, hMark.starts]
  rfl

theorem partsFrom_skip (skipped : List Char) (slashes position : Nat) (rest : List Char) :
    partsFrom skipped.length slashes position (skipped ++ rest) =
      partsFrom 0 slashes (position + skipped.length) rest := by
  induction skipped generalizing position with
  | nil => rfl
  | cons c cs ih =>
      rw [List.length_cons, List.cons_append, partsFrom, ih]
      exact congrArg (fun place => partsFrom 0 slashes place rest) (by omega)

/-- The parts of a text that begins with a mark. -/
theorem partsFrom_mark {start : Char} {rest : List Char} (hMark : IsMark start rest) (slashes position : Nat)
    (after : List Char) :
    partsFrom 0 slashes position ('[' :: (start :: rest ++ ']' :: after)) =
      .plain (backslashes (slashes / 2)) ::
        (if slashes % 2 = 1 then .plain ('[' :: (start :: rest) ++ [']']) else .mark (start :: rest) position) ::
          partsFrom 0 0 (position + rest.length + 3) after := by
  have hRest : partsFrom ((start :: rest).length + 1) 0 (position + 1) (start :: rest ++ ']' :: after) =
      partsFrom 0 0 (position + rest.length + 3) after := by
    have hSkip := partsFrom_skip (start :: rest ++ [']']) 0 (position + 1) after
    rw [List.append_assoc, List.length_append, List.length_singleton] at hSkip
    refine hSkip.trans (congrArg (fun place => partsFrom 0 0 place after) ?_)
    rw [List.length_cons]
    omega
  rw [partsFrom, if_neg (by decide), if_pos rfl, hMark.mark?]
  dsimp only
  rw [hRest]

/-! ## Marks that fit together -/

/-- The marks among some parts fit together with the styles that are on before. -/
def Fits (styles : List (List Char)) (parts : List Part) : Prop :=
  ∃ left, withoutMarksFrom styles parts = .ok left

variable {styles : List (List Char)}

theorem fits_nil : Fits styles [] :=
  ⟨[], rfl⟩

theorem fits_plain_cons {content : List Char} {parts : List Part} :
    Fits styles (.plain content :: parts) ↔ Fits styles parts := by
  rw [Fits, Fits, withoutMarksFrom]
  cases withoutMarksFrom styles parts with
  | error fault => exact ⟨nofun, nofun⟩
  | ok left => exact ⟨fun _ => ⟨left, rfl⟩, fun _ => ⟨content ++ left, rfl⟩⟩

theorem fits_plain_append {contents : List (List Char)} {parts : List Part} :
    Fits styles (contents.map Part.plain ++ parts) ↔ Fits styles parts := by
  induction contents with
  | nil => exact Iff.rfl
  | cons content contents ih => exact fits_plain_cons.trans ih

theorem fits_mark_cons {mark : List Char} {position : Nat} {next : List (List Char)} {parts : List Part}
    (hNext : afterMark styles mark position = .ok next) :
    Fits styles (.mark mark position :: parts) ↔ Fits next parts := by
  rw [Fits, Fits, withoutMarksFrom, hNext]

theorem not_fits_mark_cons {mark : List Char} {position : Nat} {fault : Fault} {parts : List Part}
    (hFault : afterMark styles mark position = .error fault) : ¬ Fits styles (.mark mark position :: parts) := by
  rw [Fits, withoutMarksFrom, hFault]
  exact nofun

/-- A text without an opening bracket does not matter for what follows it. -/
theorem fits_partsFrom_append {front : List Char} (hPlain : '[' ∉ front) (slashes position : Nat)
    (rest : List Char) :
    Fits styles (partsFrom 0 slashes position (front ++ rest)) ↔
      Fits styles (partsFrom 0 (slashesAfter slashes front) (position + front.length) rest) := by
  obtain ⟨contents, hParts⟩ := exists_partsFrom_append hPlain slashes position rest
  rw [hParts, fits_plain_append]

theorem fits_partsFrom_of_plain {cs : List Char} (hPlain : '[' ∉ cs) (slashes position : Nat) :
    Fits styles (partsFrom 0 slashes position cs) := by
  rw [← List.append_nil cs, fits_partsFrom_append hPlain]
  exact fits_plain_cons.mpr fits_nil

/-! ## Names of styles -/

/-- Some small letters, at least one. -/
def IsName (name : List Char) : Prop :=
  name ≠ [] ∧ (name.all fun c => decide ('a' ≤ c) && decide (c ≤ 'z')) = true

theorem Style.isName (style : Style) : IsName style.name.toList := by
  cases style <;> exact ⟨by decide, by decide⟩

namespace IsName

variable {name : List Char}

theorem letter (hName : IsName name) {c : Char} (hMem : c ∈ name) : 'a' ≤ c ∧ c ≤ 'z' := by
  have hLetter := List.all_eq_true.mp hName.2 c hMem
  rwa [Bool.and_eq_true, decide_eq_true_eq, decide_eq_true_eq] at hLetter

/-- A small letter is not a character before them. -/
theorem ne_of_mem (hName : IsName name) {c : Char} (hMem : c ∈ name) {other : Char} (hOther : other < 'a') :
    c ≠ other := by
  rintro rfl
  exact absurd hOther (Char.not_lt.mpr (hName.letter hMem).1)

theorem isBlank_eq_false (hName : IsName name) {c : Char} (hMem : c ∈ name) : Text.isBlank c = false := by
  have hApart : (Text.blankRanges.all fun range =>
      Nat.blt range.last 'a'.toNat || Nat.blt 'z'.toNat range.first) = true := by
    decide
  have hFrom : 'a'.toNat ≤ c.toNat := (hName.letter hMem).1
  have hTo : c.toNat ≤ 'z'.toNat := (hName.letter hMem).2
  rw [Text.isBlank, Bool.eq_false_iff, Ne, Text.inRanges_iff]
  rintro ⟨range, hRange, hFirst, hLast⟩
  have hOutside := List.all_eq_true.mp hApart range hRange
  rw [Bool.or_eq_true, Nat.blt_eq, Nat.blt_eq] at hOutside
  omega

theorem styleName_eq (hName : IsName name) : styleName name = name := by
  have hLower : ∀ c ∈ name, Text.IsLower c := fun c hMem =>
    Text.isLower_of_letter (hName.letter hMem).1 (hName.letter hMem).2
  rw [styleName, Text.strip_of_ends (fun c hMem => hName.isBlank_eq_false (List.mem_of_mem_head? hMem))
    (fun c hMem => hName.isBlank_eq_false (List.mem_of_mem_getLast? hMem)), Text.lowercase_of_isLower hLower]

end IsName

/-! ## Styles that are switched on and off -/

/-- Switching a style on. -/
theorem afterMark_open (styles : List (List Char)) {name : List Char} (hName : IsName name) (position : Nat) :
    afterMark styles name position = .ok (name :: styles) := by
  have hWhole : name.takeWhile (· != '=') = name :=
    List.takeWhile_eq_self_iff.mpr fun c hMem => bne_iff_ne.mpr (hName.ne_of_mem hMem (by decide))
  rw [afterMark, hWhole]
  split
  · exact absurd rfl (hName.ne_of_mem List.mem_cons_self (by decide))
  · rw [hName.styleName_eq]

/-- Switching a style off: it has to be on. -/
theorem afterMark_close (styles : List (List Char)) {name : List Char} (hName : IsName name) (position : Nat) :
    afterMark styles ('/' :: name) position =
      if styles.contains name then
        .ok (styles.erase name)
      else
        .error ⟨"closing tag '[" ++ String.ofList ('/' :: name) ++ "]'" ++ (" at position " ++ toString position) ++
          " doesn't match any open tag"⟩ := by
  have hWhole : ('/' :: name).takeWhile (· != '=') = '/' :: name := by
    refine List.takeWhile_eq_self_iff.mpr (List.forall_mem_cons.mpr ⟨by decide, fun c hMem => ?_⟩)
    exact bne_iff_ne.mpr (hName.ne_of_mem hMem (by decide))
  rw [afterMark, hWhole]
  simp only [hName.styleName_eq]
  cases name with
  | nil => exact absurd rfl hName.1
  | cons c cs => rfl

/-- The mark that switches a style on. -/
theorem IsName.isMark_open {c : Char} {cs : List Char} (hName : IsName (c :: cs)) : IsMark c cs where
  starts := by
    obtain ⟨hFrom, hTo⟩ := hName.letter List.mem_cons_self
    rw [startsMark, decide_eq_true hFrom, decide_eq_true hTo]
    rfl
  within d hMem := by
    have hApart {other : Char} (hOther : other < 'a') : d ≠ other :=
      hName.ne_of_mem (List.mem_cons_of_mem c hMem) hOther
    rw [bne_iff_ne.mpr (hApart (by decide)), bne_iff_ne.mpr (hApart (by decide))]
    rfl

/-- The mark that switches a style off. -/
theorem IsName.isMark_close {name : List Char} (hName : IsName name) : IsMark '/' name where
  starts := by decide
  within d hMem := by
    rw [bne_iff_ne.mpr (hName.ne_of_mem hMem (by decide)), bne_iff_ne.mpr (hName.ne_of_mem hMem (by decide))]
    rfl

/-- A text that begins with the mark that switches a style on. -/
theorem fits_open {name : List Char} (hName : IsName name) (position : Nat) (after : List Char) :
    Fits styles (partsFrom 0 0 position ('[' :: (name ++ ']' :: after))) ↔
      Fits (name :: styles) (partsFrom 0 0 (position + name.length + 2) after) := by
  cases name with
  | nil => exact absurd rfl hName.1
  | cons c cs =>
      have hPosition : position + (c :: cs).length + 2 = position + cs.length + 3 := by
        rw [List.length_cons]
        omega
      rw [partsFrom_mark hName.isMark_open, if_neg (by decide), fits_plain_cons,
        fits_mark_cons (afterMark_open styles hName position), hPosition]

/-- A text that begins with the mark that switches the last style off, or has this mark as a text. -/
theorem fits_close {name : List Char} (hName : IsName name) (slashes position : Nat) :
    Fits (name :: styles) (partsFrom 0 slashes position ('[' :: ('/' :: name ++ [']']))) := by
  rw [partsFrom_mark hName.isMark_close, fits_plain_cons]
  have hEnd {styles : List (List Char)} {place : Nat} : Fits styles (partsFrom 0 0 place []) :=
    fits_plain_cons.mpr fits_nil
  by_cases hOdd : slashes % 2 = 1
  · rw [if_pos hOdd, fits_plain_cons]
    exact hEnd
  · have hOn : (name :: styles).contains name = true :=
      List.contains_iff_mem.mpr List.mem_cons_self
    have hOff := afterMark_close (name :: styles) hName position
    rw [if_pos hOn] at hOff
    rw [if_neg hOdd, fits_mark_cons hOff]
    exact hEnd

/-- A text that begins with the mark that switches off a style that is not on. -/
theorem not_fits_close {name : List Char} (hName : IsName name) (hOff : name ∉ styles) (position : Nat)
    (after : List Char) : ¬ Fits styles (partsFrom 0 0 position ('[' :: ('/' :: name ++ ']' :: after))) := by
  have hFault := afterMark_close styles hName position
  rw [if_neg fun hOn => hOff (List.contains_iff_mem.mp hOn)] at hFault
  rw [partsFrom_mark hName.isMark_close, if_neg (by decide), fits_plain_cons]
  exact not_fits_mark_cons hFault

/-! ## The plain console -/

/-- What the plain console shows of a text. -/
theorem standard_text (text : String) :
    standard.text text = (withoutMarksFrom [] (parts text.toList)).map fun left =>
      String.ofList (withoutTabs (left.filter fun c => !isControl c) ++ ['\n']) := by
  show Except.map _ (Except.map _ (withoutMarksFrom [] (parts text.toList))) = _
  cases withoutMarksFrom [] (parts text.toList) with
  | ok left => simp [Except.map]
  | error fault => rfl

theorem standard_text_ok {text : String} (hFits : Fits [] (parts text.toList)) :
    ∃ shown, standard.text text = .ok shown := by
  obtain ⟨left, hLeft⟩ := hFits
  rw [standard_text, hLeft]
  exact ⟨_, rfl⟩

theorem standard_text_error {text : String} (hFits : ¬ Fits [] (parts text.toList)) :
    ∃ fault, standard.text text = .error fault := by
  rw [standard_text]
  cases hLeft : withoutMarksFrom [] (parts text.toList) with
  | ok left => exact absurd ⟨left, hLeft⟩ hFits
  | error fault => exact ⟨fault, rfl⟩

/-- The characters of a text between the marks of a style. -/
theorem toList_styled (style : Style) (text : String) :
    (styled style text).toList =
      '[' :: (style.name.toList ++ ']' :: (text.toList ++ '[' :: ('/' :: style.name.toList ++ [']']))) := by
  simp [styled]

/-- The plain console keeps the laws of marks. -/
theorem standard_lawful : standard.Lawful where
  unmarked hPlain := standard_text_ok (fits_partsFrom_of_plain hPlain 0 0)
  styled style text hPlain := by
    refine standard_text_ok ?_
    rw [toList_styled, parts, fits_open style.isName, fits_partsFrom_append hPlain]
    exact fits_close style.isName _ _
  unmatched style before name after hPlain hLast hSome hLetters hOther := by
    have hName : IsName name.toList := ⟨hSome, hLetters⟩
    have hOff : name.toList ∉ [style.name.toList] := fun hSame =>
      hOther (congrArg List.head? (List.mem_singleton.mp hSame))
    have hText : (before ++ "[/" ++ name ++ "]" ++ after).toList ++ '[' :: ('/' :: style.name.toList ++ [']']) =
        before.toList ++ '[' :: ('/' :: name.toList ++ ']' ::
          (after.toList ++ '[' :: ('/' :: style.name.toList ++ [']']))) := by
      simp
    refine standard_text_error ?_
    rw [toList_styled, parts, fits_open style.isName, hText, fits_partsFrom_append hPlain,
      slashesAfter_eq_zero hLast]
    exact not_fits_close hName hOff _ _

end Console
end PlanLogic
