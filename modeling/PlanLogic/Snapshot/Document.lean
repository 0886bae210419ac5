import PlanLogic.Fact.Reading
import PlanLogic.Snapshot.Basic

/-!
# Snapshots as documents

A document has one fact or assignment a line; blank lines and lines that start with `#` or `;` say nothing.
A fact keeps the place of its first line, and a head keeps that place too but takes the number of its last
line.  Lines are counted from the first one that is not blank.
-/

namespace PlanLogic

/-- The first line that a document is refused for: the reason, its number and its text. -/
structure DocumentError where
  cause : FactError
  line : Nat
  text : String
deriving Repr, DecidableEq

/-- The full message. -/
def DocumentError.message (e : DocumentError) : String :=
  "Line " ++ toString e.line ++ ": " ++ e.cause.message ++ "\n  " ++ e.text

namespace Snapshot

/-- Whether a stripped line says nothing. -/
def isSilent (line : List Char) : Bool :=
  match line with
  | [] => true
  | c :: _ => c == '#' || c == ';'

/-- The snapshot after a stripped line that says something. -/
def readLine (snapshot : Snapshot) (line : String) : Except FactError Snapshot :=
  if Assignment.isMeant line then
    (Assignment.ofText line).map snapshot.assign
  else
    (Fact.ofText line).map snapshot.add

/-- The snapshot after the lines from number `line` on. -/
def readLines (snapshot : Snapshot) (line : Nat) : List (List Char) → Except DocumentError Snapshot
  | [] => .ok snapshot
  | cs :: rest =>
    let stripped := Text.strip cs
    if isSilent stripped then
      snapshot.readLines (line + 1) rest
    else
      match snapshot.readLine (String.ofList stripped) with
      | .ok next => next.readLines (line + 1) rest
      | .error cause => .error ⟨cause, line, String.ofList stripped⟩

/-- The snapshot that a document describes. -/
def ofText (text : String) : Except DocumentError Snapshot :=
  empty.readLines 1 (Text.lines (Text.strip text.toList))

/-- A headed section of a document, left out when it has no lines. -/
def sectionLines (heading : String) (lines : List String) : List String :=
  if lines.isEmpty then [] else heading :: lines ++ [""]

/-- The document of a snapshot: its facts, then its assignments. -/
def text (snapshot : Snapshot) : String :=
  String.intercalate "\n" <|
    sectionLines "# Predicates" (snapshot.facts.map Fact.key) ++
      sectionLines "# Functions" (snapshot.assignments.map Assignment.text)

end Snapshot
end PlanLogic
