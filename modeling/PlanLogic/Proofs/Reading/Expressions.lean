import PlanLogic.Proofs.Reading.Grammar
import PlanLogic.Proofs.Reading.Language

/-!
# Readers of arguments, expressions and typed lists

The readers below the level of conditions read exactly what the grammar says.  Argument lists and expressions
are described by an induction on the bound; a typed list by the recursion of its reader, since it stops before
the token that ends it.
-/

namespace PlanLogic
namespace Reading

theorem isWord_iff {text : String} :
    IsWord text ↔ text ≠ "(" ∧ text ≠ ")" ∧ isVariable text = false := by
  constructor
  · rintro ⟨hParenthesis, hVariable⟩
    simp only [isParenthesisText, Bool.or_eq_false_iff, beq_eq_false_iff_ne] at hParenthesis
    exact ⟨hParenthesis.1, hParenthesis.2, hVariable⟩
  · rintro ⟨hOpen, hClose, hVariable⟩
    exact ⟨by simp [isParenthesisText, hOpen, hClose], hVariable⟩

theorem not_isVariable_open : isVariable "(" = false := by decide

theorem not_isVariable_close : isVariable ")" = false := by decide

/-- No argument is a closing parenthesis. -/
theorem not_argumentOf_close {scope : Scope} {arg : Term} : ¬ ArgumentOf scope ")" arg := by
  rintro (⟨hVariable, -⟩ | hWord)
  · simp [not_isVariable_close] at hVariable
  · exact (isWord_iff.mp hWord).2.1 rfl

/-- No argument is an opening parenthesis. -/
theorem not_argumentOf_open {scope : Scope} {arg : Term} : ¬ ArgumentOf scope "(" arg := by
  rintro (⟨hVariable, -⟩ | hWord)
  · simp [not_isVariable_open] at hVariable
  · exact (isWord_iff.mp hWord).1 rfl

/-! ## Argument lists -/

/-- A closed argument list by its first token. -/
theorem closed_argumentsOf_cons {scope : Scope} {text : String} {words : List String} {args : List Term} :
    Language.closed (ArgumentsOf scope) (text :: words) args ↔
      (text = ")" ∧ words = [] ∧ args = []) ∨
        ∃ arg rest, ArgumentOf scope text arg ∧ args = arg :: rest ∧
          Language.closed (ArgumentsOf scope) words rest := by
  constructor
  · rintro ⟨front, hWords, hArgs⟩
    cases hArgs with
    | nil =>
        obtain ⟨rfl, rfl⟩ := List.cons.inj hWords
        exact .inl ⟨rfl, rfl, rfl⟩
    | cons hArg hRest =>
        obtain ⟨rfl, rfl⟩ := List.cons.inj hWords
        exact .inr ⟨_, _, hArg, rfl, _, rfl, hRest⟩
  · rintro (⟨rfl, rfl, rfl⟩ | ⟨arg, rest, hArg, rfl, front, rfl, hRest⟩)
    · exact ⟨[], rfl, .nil⟩
    · exact ⟨text :: front, rfl, .cons hArg hRest⟩

/-- The rest of an argument list after its first token. -/
def readArgumentsAfter (scope : Scope) (text : String) : Reading (List Term) :=
  if text = ")" then
    pure []
  else if text = "(" then
    refuse .nestedArgument
  else if isVariable text then
    match scope.slotOf? text with
    | none => refuse (.unknownVariable text)
    | some slot => Condition.readArguments scope >>= fun args => pure (.slot slot :: args)
  else
    Condition.readArguments scope >>= fun args => pure (.object text :: args)

theorem readArguments_nil (scope : Scope) :
    Condition.readArguments scope [] = .error .endOfInput [] :=
  rfl

theorem readArguments_cons (scope : Scope) (token : Token) (tokens : List Token) :
    Condition.readArguments scope (token :: tokens) = readArgumentsAfter scope token.text tokens := by
  rw [Condition.readArguments, readArgumentsAfter]
  split
  · rfl
  split
  · rfl
  split
  · cases scope.slotOf? token.text with
    | none => rfl
    | some slot =>
        simp only [bind, EStateM.bind]
        cases Condition.readArguments scope tokens <;> rfl
  · simp only [bind, EStateM.bind]
    cases Condition.readArguments scope tokens <;> rfl

/-- The first token of an argument list ends it or is an argument before the others. -/
theorem readsWithin_readArgumentsAfter {scope : Scope} {bound : Nat}
    (hRest : ReadsWithin bound (Condition.readArguments scope) (Language.closed (ArgumentsOf scope)))
    (text : String) :
    ReadsWithin bound (readArgumentsAfter scope text)
      fun words args => Language.closed (ArgumentsOf scope) (text :: words) args := by
  -- A first token that is an argument in exactly one way.
  have hMore (arg : Term) (hArg : ∀ other, ArgumentOf scope text other ↔ other = arg)
      (hText : text ≠ ")") :
      ReadsWithin bound (Condition.readArguments scope >>= fun args => pure (arg :: args))
        fun words args => Language.closed (ArgumentsOf scope) (text :: words) args := by
    refine (hRest.map (arg :: ·)).congr fun words args => ?_
    simp only [closed_argumentsOf_cons, hText, false_and, false_or, hArg, exists_and_left,
      exists_eq_left, and_comm]
  -- A first token that is no argument, and does not end the list either.
  have hNone (cause : ParseError.Cause) (hArg : ∀ other, ¬ ArgumentOf scope text other)
      (hText : text ≠ ")") :
      ReadsWithin bound (refuse cause : Reading (List Term))
        fun words args => Language.closed (ArgumentsOf scope) (text :: words) args := by
    refine (reads_refuse cause bound).congr fun words args => ?_
    simp [closed_argumentsOf_cons, hText, hArg]
  unfold readArgumentsAfter
  split
  · next hText =>
      refine (reads_pure _ bound).congr fun words args => ?_
      subst hText
      simp [closed_argumentsOf_cons, not_argumentOf_close]
  next hClose =>
  split
  · next hText =>
      subst hText
      exact hNone _ (fun _ => not_argumentOf_open) (by decide)
  next hOpen =>
  split
  · next hVariable =>
      have hSlotOf (other : Term) :
          ArgumentOf scope text other ↔ ∃ slot, scope.slotOf? text = some slot ∧ other = .slot slot := by
        constructor
        · rintro (⟨-, hSlot⟩ | hWord)
          · exact ⟨_, hSlot, rfl⟩
          · simp [hWord.noVariable] at hVariable
        · rintro ⟨slot, hSlot, rfl⟩
          exact .slot hVariable hSlot
      cases hSlot : scope.slotOf? text with
      | none => exact hNone _ (by simp [hSlotOf, hSlot]) hClose
      | some slot => exact hMore _ (by simp [hSlotOf, hSlot]) hClose
  · next hVariable =>
      refine hMore _ (fun other => ?_) hClose
      constructor
      · rintro (⟨hIs, -⟩ | -)
        · exact absurd hIs hVariable
        · rfl
      · rintro rfl
        exact .object (isWord_iff.mpr ⟨hOpen, hClose, by simpa using hVariable⟩)

/-- A reader of arguments reads arguments up to and with a closing parenthesis. -/
theorem reads_readArguments (scope : Scope) :
    Reads (Condition.readArguments scope) (Language.closed (ArgumentsOf scope)) := by
  intro bound
  induction bound with
  | zero => exact .zero (readArguments_nil scope) fun _ => not_closed_nil
  | succ bound ih =>
      exact .of_head (readArguments_nil scope) (fun _ => not_closed_nil) fun token tokens =>
        .inl ⟨_, readsWithin_readArgumentsAfter ih token.text, readArguments_cons scope token tokens⟩

/-! ## Expressions -/

theorem arithmetic_symbol_eq {text : String} {op : Arithmetic} (hOp : Arithmetic.ofSymbol? text = some op) :
    op.symbol = text := by
  simpa using List.find?_some hOp

/-- The rest of an expression after an opening parenthesis and its head. -/
def readApplication (scope : Scope) (bound : Nat) (head : String) : Reading Expression :=
  match Arithmetic.ofSymbol? head with
  | some op => do
    let left ← Condition.readExpressionWithin scope bound
    let right ← Condition.readExpressionWithin scope bound
    expect ")"
    return .arithmetic op left right
  | none => do
    if isParenthesisText head || isVariable head then
      refuse (.functionName head)
    else
      return .function ⟨head, ← Condition.readArguments scope⟩

/-- The rest of an expression after its first token, which is no closing parenthesis. -/
def readExpressionAfter (scope : Scope) (bound : Nat) (text : String) : Reading Expression :=
  if text = "(" then
    next >>= readApplication scope bound
  else
    match Condition.leaf scope text with
    | .ok expression => pure expression
    | .error cause => refuse cause

theorem readExpressionWithin_nil (scope : Scope) (bound : Nat) :
    Condition.readExpressionWithin scope bound [] = .error (.expectedExpression none) [] := by
  cases bound <;> rfl

theorem readExpressionWithin_cons (scope : Scope) (bound : Nat) (token : Token) (tokens : List Token) :
    Condition.readExpressionWithin scope (bound + 1) (token :: tokens) =
      if token.text = ")" then
        .error (.expectedExpression (some ")")) (token :: tokens)
      else
        readExpressionAfter scope bound token.text tokens := by
  obtain ⟨text, position⟩ := token
  by_cases hClose : text = ")"
  · subst hClose
    rw [if_pos rfl]
    rfl
  rw [if_neg hClose, readExpressionAfter]
  by_cases hOpen : text = "("
  · subst hOpen
    rw [if_pos rfl]
    cases tokens with
    | nil => rfl
    | cons head tokens =>
        cases hHead : Arithmetic.ofSymbol? head.text with
        | some op => simp [Condition.readExpressionWithin, readApplication, hHead, bind, EStateM.bind, peek, next]
        | none => simp [Condition.readExpressionWithin, readApplication, hHead, bind, EStateM.bind, peek, next]
  · rw [if_neg hOpen]
    cases hLeaf : Condition.leaf scope text with
    | ok expression => simp [Condition.readExpressionWithin, hLeaf, bind, EStateM.bind, peek, next]
    | error cause => simp [Condition.readExpressionWithin, hLeaf, bind, EStateM.bind, peek, next]

/-- What an opening parenthesis and a head start. -/
theorem denotesExpression_open_iff {scope : Scope} {head : String} {words : List String}
    {expression : Expression} :
    DenotesExpression scope ("(" :: head :: words) expression ↔
      (∃ op left right leftWords rightWords, Arithmetic.ofSymbol? head = some op ∧
        words = leftWords ++ rightWords ++ [")"] ∧ DenotesExpression scope leftWords left ∧
        DenotesExpression scope rightWords right ∧ expression = .arithmetic op left right) ∨
      (Arithmetic.ofSymbol? head = none ∧ IsWord head ∧
        ∃ args, Language.closed (ArgumentsOf scope) words args ∧ expression = .function ⟨head, args⟩) := by
  constructor
  · intro hDenotes
    cases hDenotes with
    | function hName hOperator hArgs => exact .inr ⟨hOperator, hName, _, ⟨_, rfl, hArgs⟩, rfl⟩
    | arithmetic op hLeft hRight =>
        exact .inl ⟨op, _, _, _, _, Arithmetic.ofSymbol?_symbol op, rfl, hLeft, hRight, rfl⟩
  · rintro (⟨op, left, right, leftWords, rightWords, hOp, rfl, hLeft, hRight, rfl⟩ |
      ⟨hOperator, hName, args, ⟨front, rfl, hArgs⟩, rfl⟩)
    · rw [← arithmetic_symbol_eq hOp]
      exact .arithmetic op hLeft hRight
    · exact .function hName hOperator hArgs

/-- What a token other than a parenthesis denotes by itself. -/
theorem denotesExpression_cons_iff {scope : Scope} {text : String} {words : List String}
    {expression : Expression} (hOpen : text ≠ "(") (hClose : text ≠ ")") :
    DenotesExpression scope (text :: words) expression ↔
      words = [] ∧ Condition.leaf scope text = .ok expression := by
  have hLeafNumber (hVariable : isVariable text = false) {value : Float}
      (hValue : Decimal.literal? text.toList = some value) :
      Condition.leaf scope text = .ok (.number value) := by
    simp [Condition.leaf, hVariable, hValue]
  have hLeafConstant (hVariable : isVariable text = false) (hValue : Decimal.literal? text.toList = none) :
      Condition.leaf scope text = .ok (.constant text) := by
    simp [Condition.leaf, hVariable, hValue]
  constructor
  · intro hDenotes
    cases hDenotes with
    | number hWord hValue => exact ⟨rfl, hLeafNumber hWord.noVariable hValue⟩
    | slot hVariable hSlot => exact ⟨rfl, by simp [Condition.leaf, hVariable, hSlot]⟩
    | constant hWord hValue => exact ⟨rfl, hLeafConstant hWord.noVariable hValue⟩
    | function => exact absurd rfl hOpen
    | arithmetic => exact absurd rfl hOpen
  · rintro ⟨rfl, hLeaf⟩
    cases hVariable : isVariable text with
    | true =>
        simp only [Condition.leaf, hVariable, if_true] at hLeaf
        split at hLeaf
        · simp at hLeaf
        · next slot hSlot =>
            obtain rfl := Except.ok.inj hLeaf
            exact .slot hVariable hSlot
    | false =>
        have hWord : IsWord text := isWord_iff.mpr ⟨hOpen, hClose, hVariable⟩
        cases hValue : Decimal.literal? text.toList with
        | some value =>
            rw [hLeafNumber hVariable hValue] at hLeaf
            obtain rfl := Except.ok.inj hLeaf
            exact .number hWord hValue
        | none =>
            rw [hLeafConstant hVariable hValue] at hLeaf
            obtain rfl := Except.ok.inj hLeaf
            exact .constant hWord hValue

/-- No expression starts with a closing parenthesis. -/
theorem not_denotesExpression_close {scope : Scope} {text : String} {words : List String}
    {expression : Expression} (hClose : text = ")") :
    ¬ DenotesExpression scope (text :: words) expression := by
  intro hDenotes
  cases hDenotes with
  | number hWord => exact (isWord_iff.mp hWord).2.1 hClose
  | slot hVariable => simp [hClose, not_isVariable_close] at hVariable
  | constant hWord => exact (isWord_iff.mp hWord).2.1 hClose
  | function => simp at hClose
  | arithmetic => simp at hClose

theorem not_denotesExpression_nil {scope : Scope} {expression : Expression} :
    ¬ DenotesExpression scope [] expression := by
  intro hDenotes
  cases hDenotes

/-- Applications are read as the grammar says, if their operands are. -/
theorem readsWithin_readApplication {scope : Scope} {bound : Nat}
    (hOperand : ReadsWithin bound (Condition.readExpressionWithin scope bound) (DenotesExpression scope))
    (head : String) :
    ReadsWithin bound (readApplication scope bound head)
      fun words expression => DenotesExpression scope ("(" :: head :: words) expression := by
  unfold readApplication
  split
  · next op hOp =>
      refine (hOperand.bind fun left => hOperand.closed_map (Expression.arithmetic op left)).congr
        fun words expression => ?_
      rw [denotesExpression_open_iff]
      simp only [hOp, reduceCtorEq, false_and, or_false]
      constructor
      · rintro ⟨leftWords, left, _, rfl, hLeft, right, ⟨rightWords, rfl, hRight⟩, rfl⟩
        exact ⟨op, left, right, leftWords, rightWords, rfl, by simp, hLeft, hRight, rfl⟩
      · rintro ⟨found, left, right, leftWords, rightWords, hFound, rfl, hLeft, hRight, rfl⟩
        obtain rfl := Option.some.inj hFound
        exact ⟨leftWords, left, _, List.append_assoc .., hLeft, right, ⟨rightWords, rfl, hRight⟩, rfl⟩
  · next hOp =>
      split
      · next hRefused =>
          refine (reads_refuse _ bound).congr fun words expression => ?_
          rw [denotesExpression_open_iff]
          simp only [hOp, reduceCtorEq, false_and, exists_false, false_or, true_and, false_iff]
          rintro ⟨hWord, -⟩
          simp [hWord.noParenthesis, hWord.noVariable] at hRefused
      · next hAllowed =>
          refine ((reads_readArguments scope bound).map fun args =>
            Expression.function ⟨head, args⟩).congr fun words expression => ?_
          have hWord : IsWord head := by
            simp only [Bool.or_eq_true, not_or, Bool.not_eq_true] at hAllowed
            exact ⟨hAllowed.1, hAllowed.2⟩
          rw [denotesExpression_open_iff]
          simp only [hOp, reduceCtorEq, false_and, exists_false, false_or, true_and, hWord]

/-- What follows the first token of an expression is read as the grammar says, if operands are. -/
theorem readsWithin_readExpressionAfter {scope : Scope} {bound : Nat}
    (hOperand : ReadsWithin bound (Condition.readExpressionWithin scope bound) (DenotesExpression scope))
    {text : String} (hClose : text ≠ ")") :
    ReadsWithin bound (readExpressionAfter scope bound text)
      fun words expression => DenotesExpression scope (text :: words) expression := by
  unfold readExpressionAfter
  split
  · next hOpen =>
      subst hOpen
      refine ((reads_next bound).bind (readsWithin_readApplication hOperand)).congr
        fun words expression => ?_
      constructor
      · rintro ⟨_, head, rest, rfl, rfl, hDenotes⟩
        exact hDenotes
      · intro hDenotes
        cases words with
        | nil => cases hDenotes with
          | number hWord => exact absurd rfl (isWord_iff.mp hWord).1
          | slot hVariable => simp [not_isVariable_open] at hVariable
          | constant hWord => exact absurd rfl (isWord_iff.mp hWord).1
        | cons head rest => exact ⟨[head], head, rest, rfl, rfl, hDenotes⟩
  · next hOpen =>
      split
      · next expression hLeaf =>
          refine (reads_pure expression bound).congr fun words found => ?_
          rw [denotesExpression_cons_iff hOpen hClose, hLeaf]
          simp [eq_comm]
      · next cause hLeaf =>
          refine (reads_refuse cause bound).congr fun words found => ?_
          simp [denotesExpression_cons_iff hOpen hClose, hLeaf]

/-- An expression is read from at most `bound` tokens as the grammar says. -/
theorem readsWithin_readExpressionWithin (scope : Scope) (bound : Nat) :
    ReadsWithin bound (Condition.readExpressionWithin scope bound) (DenotesExpression scope) := by
  induction bound with
  | zero => exact .zero (readExpressionWithin_nil scope 0) fun _ => not_denotesExpression_nil
  | succ bound ih =>
      refine .of_head (readExpressionWithin_nil scope _) (fun _ => not_denotesExpression_nil)
        fun token tokens => ?_
      have hStep := readExpressionWithin_cons scope bound token tokens
      by_cases hClose : token.text = ")"
      · rw [if_pos hClose] at hStep
        exact .inr ⟨⟨_, hStep⟩, fun _ _ => not_denotesExpression_close hClose⟩
      · rw [if_neg hClose] at hStep
        exact .inl ⟨_, readsWithin_readExpressionAfter ih hClose, hStep⟩

/-- A reader of expressions reads expressions. -/
theorem reads_readExpression (scope : Scope) :
    Reads (Condition.readExpression scope) (DenotesExpression scope) :=
  reads_of_length (readsWithin_readExpressionWithin scope)

/-- An expression is read from exactly the lists of tokens that denote it. -/
theorem readExpression_eq_ok_iff {scope : Scope} {tokens : List Token} {expression : Expression} :
    Condition.readExpression scope tokens = .ok expression [] ↔
      DenotesExpression scope (tokens.map Token.text) expression := by
  rw [(reads_readExpression scope _).ok_iff (Nat.le_refl _)]
  simp only [List.append_nil, exists_eq_left']

end Reading
end PlanLogic
