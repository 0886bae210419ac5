import PlanLogic.Proofs.Reading.Conditions
import PlanLogic.Proofs.Reading.Scanning
import Mathlib.Data.Set.Subsingleton

/-!
# Which texts are conditions

A text is read as a condition if and only if its tokens are a word of the grammar, and a text that is refused
names a place inside it.  Inside a longer list of tokens the reader stops at the only place up to which the
tokens are a word.
-/

namespace PlanLogic

namespace Reading

/-- The place of an error is inside the text or at its end. -/
theorem positionIn_le {text : String} {rest : List Token} (hRest : rest <:+ Token.ofText text) :
    positionIn text rest ≤ text.length := by
  cases rest with
  | nil => exact Nat.le_refl _
  | cons token rest => exact Nat.le_of_lt (Token.position_lt_length (hRest.subset (List.mem_cons_self)))

end Reading

namespace Condition

open Reading

/-- A whole condition is a condition with nothing after it. -/
theorem readWhole_eq_ok {scope : Scope} {tokens rest : List Token} {condition : Option Condition} :
    readWhole scope tokens = .ok condition rest ↔ read scope tokens = .ok condition [] ∧ rest = [] := by
  rw [readWhole, bind_eq_ok]
  constructor
  · rintro ⟨found, middle, hRead, hEnd⟩
    cases middle with
    | nil =>
        obtain ⟨rfl, rfl⟩ := EStateM.Result.ok.inj hEnd
        exact ⟨hRead, rfl⟩
    | cons token middle => simp [bind, EStateM.bind, peek, refuse] at hEnd
  · rintro ⟨hRead, rfl⟩
    exact ⟨condition, [], hRead, rfl⟩

/-- A refusal leaves an end of the tokens. -/
theorem suffix_of_readWhole_eq_error {scope : Scope} {tokens rest : List Token} {cause : ParseError.Cause}
    (hError : readWhole scope tokens = .error cause rest) : rest <:+ tokens := by
  have hReads := reads_read scope tokens.length
  rw [readWhole, bind_eq_error] at hError
  obtain hRead | ⟨condition, middle, hRead, hEnd⟩ := hError
  · exact hReads.suffix_of_error (Nat.le_refl _) hRead
  · have hMiddle := hReads.suffix_of_ok (Nat.le_refl _) hRead
    cases middle with
    | nil => simp [bind, EStateM.bind, peek, pure, EStateM.pure] at hEnd
    | cons token middle =>
        simp only [bind, EStateM.bind, peek, List.head?_cons, Option.map_some, refuse,
          EStateM.Result.error.injEq] at hEnd
        exact hEnd.2 ▸ hMiddle

/-- A text is read as a condition if its tokens are a word for it. -/
theorem ofText_eq_ok_iff {text : String} {scope : Scope} {condition : Option Condition} :
    ofText text scope = .ok condition ↔
      Denotes scope ((Token.ofText text).map Token.text) condition := by
  have hWhole : ofText text scope = .ok condition ↔
      read scope (Token.ofText text) = .ok condition [] := by
    rw [ofText, onText, outcome]
    cases hRead : readWhole scope (Token.ofText text) with
    | ok found rest =>
        obtain ⟨hFound, rfl⟩ := readWhole_eq_ok.mp hRead
        simp [hFound]
    | error cause rest =>
        simp only [reduceCtorEq, false_iff]
        intro hFound
        simp [readWhole_eq_ok.mpr ⟨hFound, rfl⟩] at hRead
  rw [hWhole, (reads_read scope _).ok_iff (Nat.le_refl _)]
  simp

/-- The place of a refusal is inside the text or at its end. -/
theorem position_le_of_ofText_eq_error {text : String} {scope : Scope} {error : ParseError}
    (hError : ofText text scope = .error error) : error.position ≤ text.length := by
  rw [ofText, onText, outcome] at hError
  split at hError
  · simp at hError
  · next cause rest hRead =>
      obtain rfl := Except.error.inj hError
      exact positionIn_le (suffix_of_readWhole_eq_error hRead)

/-- The tokens from one place up to another are a word for a condition. -/
def DenotedBetween (scope : Scope) (tokens : List Token) (start stop : Nat)
    (condition : Option Condition) : Prop :=
  start ≤ stop ∧ stop ≤ tokens.length ∧
    Denotes scope (((tokens.drop start).take (stop - start)).map Token.text) condition

theorem read_drop_eq_ok_iff {scope : Scope} {tokens rest : List Token} {start : Nat}
    {condition : Option Condition} :
    read scope (tokens.drop start) = .ok condition rest ↔
      ∃ stop, DenotedBetween scope tokens start stop condition ∧ rest = tokens.drop stop := by
  rw [(reads_read scope _).ok_iff (Nat.le_refl _)]
  constructor
  · rintro ⟨used, hTokens, hDenotes⟩
    -- Some token is used, so the place behind the words is inside the list.
    have hUsed : used ≠ [] := by
      rintro rfl
      exact not_denotes_nil hDenotes
    have hLength := congrArg List.length hTokens
    have hSome := List.length_pos_iff.mpr hUsed
    simp only [List.length_drop, List.length_append] at hLength
    refine ⟨start + used.length, ⟨by omega, by omega, ?_⟩, ?_⟩
    · rwa [Nat.add_sub_cancel_left, hTokens, List.take_left]
    · rw [← List.drop_drop, hTokens, List.drop_left]
  · rintro ⟨stop, ⟨hOrder, hEnd, hDenotes⟩, rfl⟩
    refine ⟨_, ?_, hDenotes⟩
    have hDrop : tokens.drop stop = (tokens.drop start).drop (stop - start) := by
      rw [List.drop_drop, Nat.add_sub_cancel' hOrder]
    rw [hDrop, List.take_append_drop]

/-- At every place of a list of tokens, the reader of a condition succeeds if and only if the tokens up to
some later place are a word for a condition; there is at most one such place, with one condition, and what
stands after it plays no part.  A text is accepted if and only if all its tokens are a word for a condition,
and otherwise it is refused with a place that lies inside it or at its end. -/
theorem accepts_iff_denotes (scope : Scope) (tokens : List Token) (start : Nat) (text : String) :
    (∀ condition rest, read scope (tokens.drop start) = .ok condition rest ↔
      ∃ stop, DenotedBetween scope tokens start stop condition ∧ rest = tokens.drop stop) ∧
    {found : Nat × Option Condition | DenotedBetween scope tokens start found.1 found.2}.Subsingleton ∧
    (∀ condition, ofText text scope = .ok condition ↔
      Denotes scope ((Token.ofText text).map Token.text) condition) ∧
    ((¬ ∃ condition, Denotes scope ((Token.ofText text).map Token.text) condition) ↔
      ∃ error, ofText text scope = .error error ∧ error.position ≤ text.length) := by
  refine ⟨fun condition rest => read_drop_eq_ok_iff, ?_, fun condition => ofText_eq_ok_iff, ?_⟩
  -- The reader is a function, so two places would be two results of one run.
  · rintro ⟨stop, condition⟩ hFound ⟨other, found⟩ hOther
    have hFirst := read_drop_eq_ok_iff.mpr ⟨stop, hFound, rfl⟩
    have hSecond := read_drop_eq_ok_iff.mpr ⟨other, hOther, rfl⟩
    obtain ⟨rfl, hDrop⟩ := EStateM.Result.ok.inj (hFirst.symm.trans hSecond)
    have hLength := congrArg List.length hDrop
    have hStop := hFound.2.1
    have hOtherStop := hOther.2.1
    simp only [List.length_drop] at hLength hStop hOtherStop
    rw [show stop = other by omega]
  · simp only [← ofText_eq_ok_iff]
    cases hText : ofText text scope with
    | ok condition => simp
    | error error => simpa using position_le_of_ofText_eq_error hText

end Condition
end PlanLogic
