import PlanLogic.Text.Blank

/-!
# Tokens

A condition is written with parentheses and symbols.  A symbol is a maximal run of characters that are
neither blank nor a parenthesis.  A semicolon at the start of a token opens a comment, which ends just before
the next line feed; inside a symbol it is an ordinary character.  Every token remembers the number of
characters before it.
-/

namespace PlanLogic

/-- A parenthesis or a symbol, with the number of characters before it. -/
structure Token where
  text : String
  position : Nat
deriving Repr, DecidableEq

namespace Token

/-- Whether a character is a parenthesis. -/
def isParenthesis (c : Char) : Bool :=
  c == '(' || c == ')'

/-- Whether a character can stand inside a symbol. -/
def isSymbolChar (c : Char) : Bool :=
  !Text.isBlank c && !isParenthesis c

/-- What a scan is in the middle of: nothing, a comment, or a symbol whose characters so far are kept in
reverse. -/
inductive Mode where
  | gap
  | comment
  | symbol (start : Nat) (reversed : List Char)

/-- The token that ends here, if the scan is inside a symbol. -/
def Mode.finish : Mode → List Token
  | .symbol start reversed => [⟨String.ofList reversed.reverse, start⟩]
  | _ => []

/-- Scans the characters from `position` on. -/
def scan (mode : Mode) (position : Nat) : List Char → List Token
  | [] => mode.finish
  | c :: cs =>
    match mode with
    -- The line feed that ends a comment is a gap, as any other blank is.
    | .comment => scan (if c = '\n' then .gap else .comment) (position + 1) cs
    | .gap =>
      if Text.isBlank c then
        scan .gap (position + 1) cs
      else if isParenthesis c then
        ⟨String.ofList [c], position⟩ :: scan .gap (position + 1) cs
      else if c = ';' then
        scan .comment (position + 1) cs
      else
        scan (.symbol position [c]) (position + 1) cs
    | .symbol start reversed =>
      if Text.isBlank c then
        ⟨String.ofList reversed.reverse, start⟩ :: scan .gap (position + 1) cs
      else if isParenthesis c then
        ⟨String.ofList reversed.reverse, start⟩ :: ⟨String.ofList [c], position⟩ ::
          scan .gap (position + 1) cs
      else
        scan (.symbol start (c :: reversed)) (position + 1) cs

/-- The tokens of a text, from left to right. -/
def ofText (text : String) : List Token :=
  scan .gap 0 text.toList

end Token
end PlanLogic
