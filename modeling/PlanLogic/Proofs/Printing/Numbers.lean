import PlanLogic.Proofs.Decimal.Literals
import PlanLogic.Proofs.Decimal.Range
import PlanLogic.Proofs.Printing.RoundTrip

/-!
# Numbers printed and read again

A literal is read as a number, whatever decimal it stands for.  What the number is printed as is a literal of the same
number if the decimal is below the end of the range.  From there on the number is an infinity.  Its text is a word
that the grammar of literals leaves out, so that it is read as the name of a constant.
-/

namespace PlanLogic

/-- A symbol is the only token of its text. -/
theorem Token.ofText_of_isSymbol {text : String} (hSymbol : IsSymbol text) :
    ∃ position, ofText text = [⟨text, position⟩] := by
  have hTexts := texts_symbol hSymbol (show AtBoundary [] from trivial)
  rw [List.append_nil, texts_nil] at hTexts
  obtain ⟨⟨found, position⟩, hToken, rfl⟩ := List.map_eq_singleton_iff.mp hTexts
  exact ⟨position, hToken⟩

/-- A literal is no parenthesis and no variable. -/
theorem Decimal.IsLiteral.isWord {text : String} {negative : Bool} {s : Scaled}
    (hLiteral : IsLiteral text.toList negative s) : IsWord text := by
  obtain ⟨c, rest, hText, hFirst⟩ := hLiteral.exists_cons
  have hNot {other : Char} (hOther : other ∉ ['+', '-', '.'] ∧ Text.isDigit other = false) : c ≠ other := by
    rintro rfl
    rcases hFirst with hMark | hDigit
    · exact hOther.1 hMark
    · exact Bool.false_ne_true (hOther.2.symm.trans hDigit)
  have hOpen : c ≠ '(' := hNot ⟨by decide, by decide +kernel⟩
  have hClose : c ≠ ')' := hNot ⟨by decide, by decide +kernel⟩
  have hVariable : c ≠ '?' := hNot ⟨by decide, by decide +kernel⟩
  refine Reading.isWord_iff.mpr ⟨?_, ?_, ?_⟩
  · rintro rfl
    exact hOpen (List.cons.inj hText).1.symm
  · rintro rfl
    exact hClose (List.cons.inj hText).1.symm
  · rw [isVariable, hText, List.head?_cons, beq_eq_false_iff_ne, Ne, Option.some.injEq]
    exact hVariable

namespace Condition

open Decimal

/-- A word is read as the expression that it denotes, wherever it stands. -/
theorem readExpression_word {scope : Scope} {text : String} {expression : Expression} (hWord : IsWord text)
    (hDenotes : DenotesExpression scope [text] expression) (position : Nat) (rest : List Token) :
    readExpression scope (⟨text, position⟩ :: rest) = .ok expression rest := by
  obtain ⟨hOpen, hClose, -⟩ := Reading.isWord_iff.mp hWord
  have hLeaf := ((Reading.denotesExpression_cons_iff hOpen hClose).mp hDenotes).2
  rw [readExpression, List.length_cons, Reading.readExpressionWithin_cons, if_neg hClose,
    Reading.readExpressionAfter, if_neg hOpen, hLeaf]
  rfl

/-- The word for an infinity is a symbol, and no literal. -/
theorem plainText_infinite (negative : Bool) :
    let printed := plainText (Binary64.infinite negative).toFloat
    printed = (if negative then "-inf" else "inf") ∧ Token.IsSymbol printed ∧ IsWord printed ∧
      literal? printed.toList = none := by
  have hPrinted : plainText (Binary64.infinite negative).toFloat = if negative then "-inf" else "inf" := by
    cases negative <;> rfl
  dsimp only
  rw [hPrinted]
  cases negative with
  | false => exact ⟨rfl, Token.isSymbol_of_all (by decide) (by decide) (by decide), ⟨by decide, by decide⟩, by decide⟩
  | true => exact ⟨rfl, Token.isSymbol_of_all (by decide) (by decide) (by decide), ⟨by decide, by decide⟩, by decide⟩

/-- A literal is read as a number and printed as one token.  If the decimal that it stands for is below the end of
the range, the token is a literal again, and is read as the same number.  Otherwise it is the word for an infinity,
which is no literal, and is read as a constant. -/
theorem readExpression_literal {text : String} {negative : Bool} {s : Scaled}
    (hLiteral : IsLiteral text.toList negative s) (scope : Scope) (position : Nat) (rest : List Token) :
    let value := (nearest negative s).toFloat
    let printed := Expression.text scope (.number value)
    readExpression scope (⟨text, position⟩ :: rest) = .ok (.number value) rest ∧
      (∃ start, Token.ofText printed = [⟨printed, start⟩]) ∧
      (s.value < overflowLimit → (∃ sign again, IsLiteral printed.toList sign again) ∧
        readExpression scope (⟨printed, position⟩ :: rest) = .ok (.number value) rest) ∧
      (overflowLimit ≤ s.value → printed = (if negative then "-inf" else "inf") ∧
        (∀ sign again, ¬ IsLiteral printed.toList sign again) ∧
        readExpression scope (⟨printed, position⟩ :: rest) = .ok (.constant printed) rest) := by
  intro value printed
  have hRead : literal? text.toList = some value := literal?_eq_some_iff.mpr ⟨negative, s, hLiteral, rfl⟩
  refine ⟨readExpression_word hLiteral.isWord (.number hLiteral.isWord hRead) position rest, ?_⟩
  rcases nearest_cases negative s with ⟨hLess, hFinite⟩ | ⟨hLimit, hInfinite⟩
  · obtain ⟨hSymbol, hWord⟩ := plainText_word hFinite
    have hAgain : literal? printed.toList = some value := literal?_text Layout.plain hFinite
    obtain ⟨sign, again, hPrinted, -⟩ := literal?_eq_some_iff.mp hAgain
    exact ⟨Token.ofText_of_isSymbol hSymbol,
      fun _ => ⟨⟨sign, again, hPrinted⟩, readExpression_word hWord (.number hWord hAgain) position rest⟩,
      fun hLimit => absurd hLess (not_lt.mpr hLimit)⟩
  · have hPrinted : printed = plainText (Binary64.infinite negative).toFloat := by
      rw [← hInfinite]
      rfl
    obtain ⟨hText, hSymbol, hWord, hNone⟩ := plainText_infinite negative
    rw [hPrinted]
    exact ⟨Token.ofText_of_isSymbol hSymbol, fun hLess => absurd hLess (not_lt.mpr hLimit),
      fun _ => ⟨hText, literal?_eq_none_iff.mp hNone, readExpression_word hWord (.constant hWord hNone) position rest⟩⟩

/-- Here digits of several scripts stand around a point and in a power, and the number is printed without them. -/
theorem readExpression_literal_scripts :
    let text := "-\u0663.5E+0\u0661"
    let s : Scaled := ⟨35, 0⟩
    let scope : Scope := ⟨[]⟩
    IsLiteral text.toList true s ∧ s.value < overflowLimit ∧
      readExpression scope [⟨text, 0⟩] = .ok (.number (-35)) [] ∧
      Expression.text scope (.number (-35)) = "-35" ∧ (∃ sign again, IsLiteral "-35".toList sign again) ∧
      readExpression scope [⟨"-35", 0⟩] = .ok (.number (-35)) [] := by
  intro text s scope
  have hText : text.toList = ['-'] ++ "\u0663.5E+0\u0661".toList := by decide +kernel
  have hUnsigned : IsUnsigned "\u0663.5E+0\u0661".toList s := unsigned?_eq_some_iff.mp (by decide +kernel)
  have hLiteral : IsLiteral text.toList true s := by
    rw [hText]
    exact .mk .minus hUnsigned
  have hValue : (nearest true s).toFloat = -35 := by decide +kernel
  have hPrinted : Expression.text scope (.number (-35)) = "-35" := by decide +kernel
  have hLess : s.value < overflowLimit := by
    rcases nearest_cases true s with ⟨hLess, -⟩ | ⟨-, hInfinite⟩
    · exact hLess
    · exact absurd hInfinite (by decide +kernel)
  obtain ⟨hRead, -, hBelow, -⟩ := readExpression_literal hLiteral scope 0 []
  obtain ⟨hAgain, hReadAgain⟩ := hBelow hLess
  rw [hValue, hPrinted] at hAgain hReadAgain
  rw [hValue] at hRead
  exact ⟨hLiteral, hLess, hRead, hPrinted, hAgain, hReadAgain⟩

/-- A literal beyond the end of the range is read as a number, and what is printed for it as a constant. -/
theorem readExpression_literal_infinite :
    let value := (Binary64.infinite false).toFloat
    let scope : Scope := ⟨[]⟩
    IsLiteral "1e999".toList false ⟨1, 999⟩ ∧ readExpression scope [⟨"1e999", 0⟩] = .ok (.number value) [] ∧
      Expression.text scope (.number value) = "inf" ∧ (∀ sign again, ¬ IsLiteral "inf".toList sign again) ∧
      readExpression scope [⟨"inf", 0⟩] = .ok (.constant "inf") [] := by
  intro value scope
  have hUnsigned : IsUnsigned "1e999".toList ⟨1, 999⟩ := unsigned?_eq_some_iff.mp (by decide +kernel)
  have hLiteral : IsLiteral "1e999".toList false ⟨1, 999⟩ := .mk .none hUnsigned
  have hRead : literal? "1e999".toList = some value := by decide +kernel
  have hPrinted : Expression.text scope (.number value) = "inf" := by decide +kernel
  have hNone : literal? "inf".toList = none := by decide +kernel
  have hWord : IsWord "inf" := ⟨by decide, by decide⟩
  exact ⟨hLiteral, readExpression_word hLiteral.isWord (.number hLiteral.isWord hRead) 0 [], hPrinted,
    literal?_eq_none_iff.mp hNone, readExpression_word hWord (.constant hWord hNone) 0 []⟩

end Condition
end PlanLogic
