import PlanLogic.Console.Basic
import PlanLogic.Console.Width
import PlanLogic.Text.Spacing

/-!
# Layout of tables

A table has a title in its middle, headings above a heavy rule, and rows.  A column is as wide as its widest
cell; every cell has a space on both sides.  A cell may take several lines, and then so does its row.

The width of a cell is taken before its tabs are replaced, so a cell with tabs may not fit.  Its words then go to
further lines, and a word that fits on no line is cut.
-/

namespace PlanLogic
namespace Console

/-- The distance of the tab stops. -/
def tabWidth : Nat := 8

/-- A text with its tabs replaced. -/
def withoutTabs (cs : List Char) : List Char :=
  Text.expandTabs columns tabWidth cs

/-- The lines between the cells of a row of a table: before the first, between two, and after the last. -/
structure Rule where
  first : Char
  between : Char
  last : Char

namespace Cell

/-- Whether a character separates lines when a cell is measured. -/
def separatesLines (c : Char) : Bool :=
  c == '\n' || Text.inRanges [⟨0x1C, 0x1E⟩, ⟨0x85, 0x85⟩, ⟨0x2028, 0x2029⟩] c

/-- The width of the widest of some lines; `current` is the width of the first so far. -/
def widest (current : Nat) : List Char → Nat
  | [] => current
  | c :: cs => if separatesLines c then max current (widest 0 cs) else widest (current + columns c) cs

/-- The width that the text of a cell asks for. -/
def width (cs : List Char) : Nat :=
  widest 0 cs

/-- The pieces of a text when it is cut before every word that follows a blank. -/
def pieces : List Char → List (List Char)
  | [] => []
  | c :: cs =>
    match pieces cs with
    | [] => [[c]]
    | piece :: rest =>
      if Text.isBlank c && !piece.head?.any Text.isBlank then
        [c] :: piece :: rest
      else
        (c :: piece) :: rest

/-- The words of a line, each with the blanks after it, and the first also with those before it. -/
def words (cs : List Char) : List (List Char) :=
  match pieces cs with
  | first :: second :: rest =>
    if first.all Text.isBlank then (first ++ second) :: rest else first :: second :: rest
  | few => few

/-- Words put on lines as long as they fit; `current` is the line under way. -/
def wrapped (width : Nat) (current : List Char) : List (List Char) → List (List Char)
  | [] => [current]
  | word :: rest =>
    if Console.width current + Console.width (Text.stripEnd word) ≤ width then
      wrapped width (current ++ word) rest
    else if current.isEmpty then
      wrapped width word rest
    else
      current :: wrapped width word rest

/-- A line without those blanks at its end that are beyond a number of characters. -/
def dropOuterBlanks (size : Nat) (cs : List Char) : List Char :=
  cs.take (max size (Text.stripEnd cs).length)

/-- The longest start of a text that fits a width. -/
def prefixWithin : Nat → List Char → List Char
  | _, [] => []
  | width, c :: cs => if columns c ≤ width then c :: prefixWithin (width - columns c) cs else []

/-- A text followed by spaces up to a width. -/
def filled (width : Nat) (cs : List Char) : List Char :=
  cs ++ Text.spaces (width - Console.width cs)

/-- A line of a cell cut to a width, with an ellipsis in place of what is cut off. -/
def cut (width : Nat) (cs : List Char) : List Char :=
  if Console.width cs ≤ width then cs else filled (width - 1) (prefixWithin (width - 1) cs) ++ ['…']

/-- The lines that a cell takes in a column of a given width. -/
def lines (width : Nat) (cs : List Char) : List (List Char) :=
  (Text.lines cs).flatMap fun line =>
    (wrapped width [] (words (withoutTabs line))).map fun part => cut width (dropOuterBlanks width part)

/-- A line of a cell, brought to the width of its column. -/
def aligned (column : Column) (width : Nat) (cs : List Char) : List Char :=
  if column.right then Text.spaces (width - Console.width cs) ++ cs else filled width cs

end Cell

namespace Table

/-- The texts of the cells of a column, without the heading. -/
def column (table : Table) (position : Nat) : List (List Char) :=
  table.rows.map fun row => (row[position]?.getD "").toList

/-- The widths of the columns. -/
def widths (table : Table) : List Nat :=
  table.columns.mapIdx fun position column =>
    (table.column position).foldl (fun width cs => max width (Cell.width cs))
      (Cell.width column.heading.toList)

/-- The pieces of a row between the lines of a rule. -/
def enclosed (rule : Rule) (pieces : List (List Char)) : List Char :=
  rule.first :: Text.join [rule.between] pieces ++ [rule.last, '\n']

/-- A horizontal line across the table. -/
def border (table : Table) (rule : Rule) (stroke : Char) : List Char :=
  enclosed rule (table.widths.map fun width => List.replicate (width + 2) stroke)

/-- The lines of a row of cells. -/
def row (table : Table) (rule : Rule) (cells : List String) : List Char :=
  let blocks := (table.columns.zip table.widths).mapIdx fun position column =>
    (column, Cell.lines column.2 (cells[position]?.getD "").toList)
  let height := blocks.foldl (fun height block => max height block.2.length) 0
  (List.range height).flatMap fun place =>
    enclosed rule <| blocks.map fun block =>
      ' ' :: Cell.aligned block.1.1 block.1.2 (block.2[place]?.getD []) ++ [' ']

/-- The number of columns in a line of the table. -/
def width (table : Table) : Nat :=
  table.widths.foldl (fun sum width => sum + width + 3) 1

/-- The lines of a table. -/
def text (table : Table) : String :=
  String.ofList <|
    Text.padBoth table.width table.title.toList ++ ['\n'] ++
    table.border ⟨'┏', '┳', '┓'⟩ '━' ++
    table.row ⟨'┃', '┃', '┃'⟩ (table.columns.map Column.heading) ++
    table.border ⟨'┡', '╇', '┩'⟩ '━' ++
    table.rows.flatMap (table.row ⟨'│', '│', '│'⟩) ++
    table.border ⟨'└', '┴', '┘'⟩ '─'

end Table
end Console
end PlanLogic
