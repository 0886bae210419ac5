import PlanLogic.Scope.Basic
import PlanLogic.Token.Cursor

/-!
# Typed lists

A typed list declares names: `?a ?b - room ?c` gives `?a` and `?b` the type `room`, and `?c`, which no type
follows, the default type.  It ends at a given token, which is left in place, or at the end of the text.
-/

namespace PlanLogic
namespace Scope

/-- Whether a token cannot be the name of a type. -/
def isNoTypeName (text : String) : Bool :=
  text == "(" || text == ")" || text == "-"

/-- Reads a typed list up to `stop`; `pending` holds the names that still wait for a type. -/
def readTypedListFrom (stop : Option String) (pending : List String) : Reading (List Binding)
  | [] => .ok (pending.map (⟨·, Binding.defaultType⟩)) []
  | token :: tokens =>
    if some token.text = stop then
      .ok (pending.map (⟨·, Binding.defaultType⟩)) (token :: tokens)
    else if token.text = "-" then
      match tokens with
      | [] => .error .endOfInput []
      | type :: rest =>
        if isNoTypeName type.text then
          .error (.typeName type.text) rest
        else if pending.isEmpty then
          .error (.typeWithoutNames type.text) rest
        else
          match readTypedListFrom stop [] rest with
          | .ok bindings left => .ok (pending.map (⟨·, type.text⟩) ++ bindings) left
          | .error cause left => .error cause left
    else if token.text = "(" || token.text = ")" then
      .error (.typedListParenthesis token.text) tokens
    else
      readTypedListFrom stop (pending ++ [token.text]) tokens

/-- Reads a typed list up to `stop`. -/
def readTypedList (stop : Option String) : Reading (List Binding) :=
  readTypedListFrom stop []

/-- The scope that a whole text declares as a typed list. -/
def ofText (text : String) : Except ParseError Scope :=
  (Reading.onText (readTypedList none) text).map Scope.mk

end Scope
end PlanLogic
