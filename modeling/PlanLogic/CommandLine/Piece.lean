import PlanLogic.CommandLine.Refusal
import PlanLogic.Text.DecimalDigit

/-!
# Arguments under a grammar

Before anything is taken from them, all arguments are told apart.  An argument that starts with a dash uses a
switch if it is the name of one, or such a name with a value attached, or an abbreviation that fits one full
name only.  It is no use of a switch, and may be a value, if it is a negative number or holds a space.  The
argument `--` separates: after it every argument is a value.
-/

namespace PlanLogic
namespace CommandLine

/-- A text attached to a switch, and whether an equals sign stands between the two. -/
structure Attachment where
  text : List Char
  equals : Bool
deriving Repr, DecidableEq

/-- A switch under one of its names, with what is attached to it. -/
structure Use where
  switch : Switch
  name : String
  attached? : Option Attachment := none
deriving Repr, DecidableEq

namespace Use

/-- Whether the name has one dash, so that flags may be joined to it. -/
def isShort (use : Use) : Bool :=
  match use.name.toList with
  | '-' :: '-' :: _ => false
  | _ => true

end Use

/-- What an argument is under a grammar. -/
inductive Piece where
  /-- A value. -/
  | plain (text : String)
  /-- The argument after which all are values. -/
  | separator
  /-- A use of a switch, or of one that the grammar does not know. -/
  | dashed (text : String) (use? : Option Use)
deriving Repr, DecidableEq

namespace Piece

/-- The separating argument. -/
def separatorText : String := "--"

/-- The argument itself. -/
def argument : Piece → String
  | .plain text => text
  | .separator => separatorText
  | .dashed text _ => text

/-- Whether a piece starts with a dash as a switch does. -/
def isDashed : Piece → Bool
  | .dashed _ _ => true
  | _ => false

/-- Whether a piece is a separator. -/
def isSeparator : Piece → Bool
  | .separator => true
  | _ => false

/-- The values at the start of some pieces. -/
def leadingValues : List Piece → List String
  | .plain text :: pieces => text :: leadingValues pieces
  | _ => []

/-- A text split at its first equals sign. -/
def splitEquals (cs : List Char) : List Char × Option (List Char) :=
  match cs.dropWhile (· != '=') with
  | [] => (cs, none)
  | _ :: value => (cs.takeWhile (· != '='), some value)

/-- A text without one line feed at its end. -/
def dropFinalLineFeed (cs : List Char) : List Char :=
  if cs.getLast? = some '\n' then cs.dropLast else cs

/-- Whether a text after its dash is a number without exponent; a line feed at its end is not counted. -/
def isPlainNumber (cs : List Char) : Bool :=
  let number := dropFinalLineFeed cs
  match number.dropWhile Text.isDigit with
  | [] => !number.isEmpty
  | '.' :: fraction => !fraction.isEmpty && fraction.all Text.isDigit
  | _ => false

/-- The use of a switch by its name with a value after an equals sign. -/
def equalsUse? (grammar : Grammar) (cs : List Char) : Option Use :=
  match splitEquals cs with
  | (name, some value) =>
    (grammar.switch? (String.ofList name)).map fun switch =>
      ⟨switch, String.ofList name, some ⟨value, true⟩⟩
  | _ => none

/-- The uses of switches whose full names a text abbreviates. -/
def abbreviatedUses (grammar : Grammar) (cs : List Char) : List Use :=
  let (abbreviation, value?) := splitEquals cs
  grammar.switches.flatMap fun switch =>
    (switch.names.filter fun name => abbreviation.isPrefixOf name.toList).map fun name =>
      ⟨switch, name, value?.map fun value => ⟨value, true⟩⟩

/-- The use of a switch by a name of one letter with a text attached. -/
def joinedUses (grammar : Grammar) (letter : Char) (rest : List Char) : List Use :=
  let name := String.ofList ['-', letter]
  (grammar.switch? name).toList.map fun switch => ⟨switch, name, some ⟨rest, false⟩⟩

/-- The uses that a text starting with a dash can stand for when it is no name of a switch. -/
def candidates (grammar : Grammar) (next : Char) (rest : List Char) : List Use :=
  match equalsUse? grammar ('-' :: next :: rest) with
  | some use => [use]
  | none =>
    if next = '-' then
      abbreviatedUses grammar ('-' :: next :: rest)
    else
      joinedUses grammar next rest

/-- What an argument that is no separator is under a grammar. -/
def ofText (grammar : Grammar) (text : String) : Except Refusal Piece :=
  match text.toList with
  | '-' :: next :: rest =>
    match grammar.switch? text with
    | some switch => .ok (.dashed text (some ⟨switch, text, none⟩))
    | none =>
      match candidates grammar next rest with
      | [use] => .ok (.dashed text (some use))
      | [] =>
        -- What looks like a negative number or holds a space was not meant as a switch.
        if isPlainNumber (next :: rest) || rest.contains ' ' || next == ' ' then
          .ok (.plain text)
        else
          .ok (.dashed text none)
      | uses => .error (.ambiguous text (uses.map Use.name))
  | _ => .ok (.plain text)

/-- What the arguments of a program are under its grammar. -/
def ofArguments (grammar : Grammar) : List String → Except Refusal (List Piece)
  | [] => .ok []
  | text :: texts =>
    if text = separatorText then
      -- Later separators are values like the arguments around them.
      .ok (.separator :: texts.map .plain)
    else
      match ofText grammar text with
      | .error refusal => .error refusal
      | .ok piece => (ofArguments grammar texts).map (piece :: ·)

end Piece
end CommandLine
end PlanLogic
