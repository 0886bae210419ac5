import PlanLogic.Condition.Basic
import PlanLogic.Decimal.Literal
import PlanLogic.Scope.TypedList
import PlanLogic.Text.Lowercase

/-!
# Reading conditions

A recursive-descent reader over tokens.  The recursion is on a bound for the number of tokens left; every
recursive call comes after a token has been consumed, so a bound of zero means that the tokens have ended, and
the answer there is the one for no tokens.
-/

namespace PlanLogic

/-- Whether a name is a variable. -/
def isVariable (name : String) : Bool :=
  name.toList.head? == some '?'

/-- Whether a token is a parenthesis. -/
def isParenthesisText (text : String) : Bool :=
  text == "(" || text == ")"

namespace Condition

/-- The keyword that a name stands for: its lower-case form. -/
def keywordOf (name : String) : String :=
  String.ofList (Text.lowercase name.toList)

/-- Keywords of the wider language that are refused. -/
def unsupportedKeywords : List String :=
  ["forall", "imply", "when", "preference", "either"]

/-- An argument list, which ends with a closing parenthesis. -/
def readArguments (scope : Scope) : Reading (List Term)
  | [] => .error .endOfInput []
  | token :: tokens =>
    if token.text = ")" then
      .ok [] tokens
    else if token.text = "(" then
      .error .nestedArgument tokens
    else if isVariable token.text then
      match scope.slotOf? token.text with
      | none => .error (.unknownVariable token.text) tokens
      | some slot =>
        match readArguments scope tokens with
        | .ok args rest => .ok (.slot slot :: args) rest
        | .error cause rest => .error cause rest
    else
      match readArguments scope tokens with
      | .ok args rest => .ok (.object token.text :: args) rest
      | .error cause rest => .error cause rest

/-- An expression that is a single token. -/
def leaf (scope : Scope) (text : String) : Except ParseError.Cause Expression :=
  if isVariable text then
    match scope.slotOf? text with
    | none => .error (.unknownVariable text)
    | some slot => .ok (.variable slot)
  else
    match Decimal.literal? text.toList with
    | some value => .ok (.number value)
    | none => .ok (.constant text)

/-- Reads an expression from at most `bound` tokens. -/
def readExpressionWithin (scope : Scope) : Nat → Reading Expression
  | 0 => Reading.refuse (.expectedExpression none)
  | bound + 1 => do
    match ← Reading.peek with
    | none => Reading.refuse (.expectedExpression none)
    | some ")" => Reading.refuse (.expectedExpression (some ")"))
    | some "(" =>
      let _ ← Reading.next
      let head ← Reading.next
      match Arithmetic.ofSymbol? head with
      | some op =>
        let left ← readExpressionWithin scope bound
        let right ← readExpressionWithin scope bound
        Reading.expect ")"
        return .arithmetic op left right
      | none =>
        -- The head is consumed by now, so the place of the refusal is the token after it.
        if isParenthesisText head || isVariable head then
          Reading.refuse (.functionName head)
        else
          return .function ⟨head, ← readArguments scope⟩
    | some text =>
      let _ ← Reading.next
      match leaf scope text with
      | .ok expression => return expression
      | .error cause => Reading.refuse cause

/-- Reads an expression. -/
def readExpression (scope : Scope) : Reading Expression := fun tokens =>
  readExpressionWithin scope tokens.length tokens

/-- The first quantified name that is not a variable. -/
def badQuantified? (bindings : List Binding) : Option String :=
  (bindings.find? fun binding => !isVariable binding.name).map Binding.name

/-- The variables of a quantifier, between parentheses. -/
def readVariables : Reading (List Binding) := do
  Reading.expect "("
  let bindings ← Scope.readTypedList (some ")")
  Reading.expect ")"
  match badQuantified? bindings with
  | some name => Reading.refuse (.quantifiedName name)
  | none => return bindings

/-- The rest of a comparison after its operator. -/
def readComparison (scope : Scope) (op : Comparison) : Reading Condition := do
  let left ← readExpression scope
  let right ← readExpression scope
  Reading.expect ")"
  return .comparison op left right

/-- The rest of an update after its operator. -/
def readUpdate (scope : Scope) (op : Update) : Reading Condition := do
  match ← readExpression scope with
  | .function target =>
    let amount ← readExpression scope
    Reading.expect ")"
    return .update op target amount
  | _ => Reading.refuse (.updateTarget op.symbol)

/-- The rest of a condition that is named by no logical keyword. -/
def readPlain (scope : Scope) (name : String) : Reading Condition := do
  let keyword := keywordOf name
  match Comparison.ofSymbol? keyword with
  | some op => readComparison scope op
  | none =>
    match Update.ofSymbol? keyword with
    | some op => readUpdate scope op
    | none =>
      if unsupportedKeywords.contains keyword then
        Reading.refuse (.unsupported keyword)
      else if isParenthesisText name || isVariable name then
        Reading.refuse (.predicateName name)
      else
        return .atom ⟨name, ← readArguments scope⟩

/-- The logical keywords. -/
inductive Keyword where
  | all
  | any
  | not
  | some
deriving Repr, DecidableEq

/-- How a logical keyword is written. -/
def Keyword.symbol : Keyword → String
  | .all => "and"
  | .any => "or"
  | .not => "not"
  | .some => "exists"

/-- The logical keyword that a symbol stands for. -/
def Keyword.ofSymbol? (text : String) : Option Keyword :=
  [Keyword.all, Keyword.any, Keyword.not, Keyword.some].find? fun keyword => keyword.symbol == text

mutual

/-- Reads a condition after its opening parenthesis, up to and with the closing one, from at most
`bound` tokens. -/
def readOpened : Nat → Scope → Reading (Option Condition)
  | 0, _ => Reading.refuse .endOfInput
  | bound + 1, scope => do
    if (← Reading.peek) = some ")" then
      let _ ← Reading.next
      return none
    let name ← Reading.next
    match Keyword.ofSymbol? (keywordOf name) with
    | some .all => return some (.conjunction (← readParts bound scope))
    | some .any => return some (.disjunction (← readParts bound scope))
    | some .not =>
      Reading.expect "("
      match ← readOpened bound scope with
      -- An empty part is refused before the closing parenthesis is looked for.
      | none => Reading.refuse .emptyNegation
      | some part =>
        Reading.expect ")"
        return some (.negation part)
    | some .some =>
      let bindings ← readVariables
      Reading.expect "("
      -- The body sees the variables in the slots after those of the scope.
      let body ← readOpened bound (scope.extend bindings)
      Reading.expect ")"
      return some (.quantified bindings (List.range' scope.size bindings.length) body)
    | none => return some (← readPlain scope name)

/-- Reads conditions up to and with a closing parenthesis, from at most `bound` tokens; empty ones are
dropped. -/
def readParts : Nat → Scope → Reading (List Condition)
  | 0, _ => Reading.refuse (.expected "(" none)
  | bound + 1, scope => do
    if (← Reading.peek) = some ")" then
      let _ ← Reading.next
      return []
    Reading.expect "("
    let part ← readOpened bound scope
    let parts ← readParts bound scope
    return part.toList ++ parts

end

/-- Reads a condition; the empty one gives nothing. -/
def read (scope : Scope) : Reading (Option Condition) := do
  Reading.expect "("
  fun tokens => readOpened tokens.length scope tokens

/-- Reads a condition and nothing after it. -/
def readWhole (scope : Scope) : Reading (Option Condition) := do
  let condition ← read scope
  match ← Reading.peek with
  | some text => Reading.refuse (.trailing text)
  | none => return condition

/-- The condition that a text denotes in a scope; the empty condition gives nothing. -/
def ofText (text : String) (scope : Scope) : Except ParseError (Option Condition) :=
  Reading.onText (readWhole scope) text

end Condition
end PlanLogic
