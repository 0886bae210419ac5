/-!
# Why a condition is refused

A `ParseError.Cause` is one reason for refusing a list of tokens.  A `ParseError` adds where in the text the
reason was seen and the text around that place; its message is composed here and nowhere else.
-/

namespace PlanLogic

/-- A reason for refusing a list of tokens. -/
inductive ParseError.Cause where
  /-- A token is needed and none is left. -/
  | endOfInput
  /-- A particular token is needed; `found` is the token in its place, if there is one. -/
  | expected (wanted : String) (found : Option String)
  /-- The condition is complete and a token follows. -/
  | trailing (found : String)
  /-- An expression is needed; `found` is the token in its place, if there is one. -/
  | expectedExpression (found : Option String)
  /-- The type of a typed list is a parenthesis or a dash. -/
  | typeName (found : String)
  /-- A type of a typed list has no names before it. -/
  | typeWithoutNames (type : String)
  /-- A typed list holds a parenthesis. -/
  | typedListParenthesis (found : String)
  /-- A negation has the empty condition as its part. -/
  | emptyNegation
  /-- An update changes something that is not a function. -/
  | updateTarget (keyword : String)
  /-- A keyword of the wider language that is not supported. -/
  | unsupported (keyword : String)
  /-- A parenthesis or a variable stands where a predicate name is needed. -/
  | predicateName (found : String)
  /-- A parenthesis or a variable stands where a function name is needed. -/
  | functionName (found : String)
  /-- An argument list holds an opening parenthesis. -/
  | nestedArgument
  /-- A variable is bound by no scope. -/
  | unknownVariable (name : String)
  /-- A quantified name is not a variable. -/
  | quantifiedName (name : String)
deriving Repr, DecidableEq

/-- The wording of a reason. -/
def ParseError.Cause.message : ParseError.Cause → String
  | .endOfInput => "Unexpected end of input"
  | .expected wanted none => "Expected '" ++ wanted ++ "', got end of input"
  | .expected wanted (some found) => "Expected '" ++ wanted ++ "', got '" ++ found ++ "'"
  | .trailing found => "Unexpected trailing input '" ++ found ++ "'"
  | .expectedExpression none => "Expected expression, got end of input"
  | .expectedExpression (some found) => "Expected expression, got '" ++ found ++ "'"
  | .typeName found => "Expected type name, got '" ++ found ++ "'"
  | .typeWithoutNames type => "Type '" ++ type ++ "' with no variables"
  | .typedListParenthesis found => "Unexpected '" ++ found ++ "' in typed list"
  | .emptyNegation => "'not' requires a condition"
  | .updateTarget keyword => "'" ++ keyword ++ "' must modify a function"
  | .unsupported keyword => "Unsupported keyword: " ++ keyword
  | .predicateName found => "Expected predicate name, got '" ++ found ++ "'"
  | .functionName found => "Expected function name, got '" ++ found ++ "'"
  | .nestedArgument => "Unexpected '(' in argument list"
  | .unknownVariable name => "Unknown variable: " ++ name
  | .quantifiedName name => "Quantified variable must start with '?': " ++ name

/-- A refused text: the reason, the number of characters before the place where it was seen, and the
text around that place on one line. -/
structure ParseError where
  cause : ParseError.Cause
  position : Nat
  context : String
deriving Repr, DecidableEq

namespace ParseError

/-- How many characters before and after a place belong to its context. -/
def contextWidth : Nat := 20

/-- The text around a place, with line feeds shown as spaces. -/
def contextAt (text : String) (position : Nat) : String :=
  String.ofList <|
    ((text.toList.take (position + contextWidth)).drop (position - contextWidth)).map
      fun c => if c = '\n' then ' ' else c

/-- The error of a reason seen at a place of a text. -/
def locate (text : String) (position : Nat) (cause : Cause) : ParseError :=
  ⟨cause, position, contextAt text position⟩

/-- The full message. -/
def message (e : ParseError) : String :=
  "Position " ++ toString e.position ++ ": " ++ e.cause.message ++ "\n  " ++ e.context

end ParseError
end PlanLogic
