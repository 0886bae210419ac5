import PlanLogic.Token.Basic
import PlanLogic.ParseError

/-!
# Reading tokens

A reading step consumes tokens from the front of a list.  A step that refuses its input also says which
tokens were left at that moment, because the place of an error is that of the first token left.
-/

namespace PlanLogic

/-- A step that consumes tokens from the front of a list and may refuse them. -/
abbrev Reading := EStateM ParseError.Cause (List Token)

namespace Reading

/-- Whether no token is left. -/
def atEnd : Reading Bool := fun tokens =>
  .ok tokens.isEmpty tokens

/-- The text of the next token, which stays where it is. -/
def peek : Reading (Option String) := fun tokens =>
  .ok (tokens.head?.map Token.text) tokens

/-- Consumes the next token. -/
def next : Reading String
  | [] => .error .endOfInput []
  | token :: tokens => .ok token.text tokens

/-- Consumes a token with the given text. -/
def expect (wanted : String) : Reading Unit
  | [] => .error (.expected wanted none) []
  | token :: tokens =>
    if token.text = wanted then
      .ok () tokens
    else
      .error (.expected wanted (some token.text)) (token :: tokens)

/-- Refuses the input here. -/
def refuse (cause : ParseError.Cause) : Reading α := fun tokens =>
  .error cause tokens

/-- The place in a text of the first token left; at the end it is the length of the text. -/
def positionIn (text : String) (tokens : List Token) : Nat :=
  match tokens with
  | [] => text.length
  | token :: _ => token.position

/-- The outcome of a reading step on a text: what it read and the tokens left, or the error at the
place where it stopped and the tokens left there. -/
def outcome (text : String) (step : Reading α) (tokens : List Token) :
    Except ParseError α × List Token :=
  match step tokens with
  | .ok value rest => (.ok value, rest)
  | .error cause rest => (.error (.locate text (positionIn text rest) cause), rest)

/-- Runs a reading step from the start of a text. -/
def onText (step : Reading α) (text : String) : Except ParseError α :=
  (outcome text step (Token.ofText text)).1

end Reading
end PlanLogic
