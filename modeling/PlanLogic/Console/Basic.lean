/-!
# Consoles

A console shows what the program prints: texts with marks, and tables of such texts.  A mark between brackets
switches a style on or off.  Marks that do not fit together cannot be shown, so printing may fail; then nothing is
shown of the text or the table.

The program works with any console.  What it may rely on are the laws of marks.
-/

namespace PlanLogic
namespace Console

/-- Why a console cannot show a text or a table. -/
structure Fault where
  message : String
deriving Repr, DecidableEq

/-- A style of a text. -/
inductive Style where
  | dim
  | red
  | green
  | yellow
deriving Repr, DecidableEq

/-- The name of a style in marks. -/
def Style.name : Style → String
  | .dim => "dim"
  | .red => "red"
  | .green => "green"
  | .yellow => "yellow"

/-- A text between the marks that switch a style on and off. -/
def styled (style : Style) (text : String) : String :=
  "[" ++ style.name ++ "]" ++ text ++ "[/" ++ style.name ++ "]"

/-- A column of a table: its heading, and whether its cells end at its right side. -/
structure Column where
  heading : String
  right : Bool := false
deriving Repr, DecidableEq

/-- A table; every row has a cell for each column. -/
structure Table where
  title : String
  columns : List Column
  rows : List (List String)
deriving Repr, DecidableEq

end Console

/-- A console: what it shows of a text with marks and of a table, or why it cannot. -/
structure Console where
  text : String → Except Console.Fault String
  table : Console.Table → Except Console.Fault String

/-- The laws of marks. -/
structure Console.Lawful (console : Console) : Prop where
  /-- A text without an opening bracket has no marks. -/
  unmarked : ∀ {text : String}, '[' ∉ text.toList → ∃ shown, console.text text = .ok shown
  /-- The marks of a style fit together around such a text. -/
  styled : ∀ (style : Style) {text : String}, '[' ∉ text.toList → ∃ shown, console.text (styled style text) = .ok shown
  /-- A mark that switches off a style that is not on does not fit.  A style goes by its name and by abbreviations
  that start with the same letter. -/
  unmatched : ∀ (style : Style) {before name after : String}, '[' ∉ before.toList →
    before.toList.getLast? ≠ some '\\' → name.toList ≠ [] →
    (name.toList.all fun c => decide ('a' ≤ c) && decide (c ≤ 'z')) = true →
    name.toList.head? ≠ style.name.toList.head? →
      ∃ fault, console.text (Console.styled style (before ++ "[/" ++ name ++ "]" ++ after)) = .error fault

end PlanLogic
