import PlanLogic.Text.Blank

/-!
# Spacing

Tab stops, padding and line ends.  Padding counts characters; tab stops count columns, of which a character may
take any number.
-/

namespace PlanLogic
namespace Text

/-- A number of spaces. -/
def spaces (count : Nat) : List Char :=
  List.replicate count ' '

/-- A text from a column on, with every tab replaced by the spaces up to the next tab stop; `size` is the number
of columns of a character. -/
def expandTabsFrom (size : Char → Nat) (stop column : Nat) : List Char → List Char
  | [] => []
  | c :: cs =>
    if c = '\t' then
      let count := stop - column % stop
      spaces count ++ expandTabsFrom size stop (column + count) cs
    else if c = '\n' then
      c :: expandTabsFrom size stop 0 cs
    else
      c :: expandTabsFrom size stop (column + size c) cs

/-- A text with every tab replaced by the spaces up to the next tab stop; the stops are `stop` columns apart. -/
def expandTabs (size : Char → Nat) (stop : Nat) (cs : List Char) : List Char :=
  expandTabsFrom size stop 0 cs

/-- A text followed by spaces up to a width. -/
def padEnd (width : Nat) (cs : List Char) : List Char :=
  cs ++ spaces (width - cs.length)

/-- A text in the middle of a width; an odd space goes to the end. -/
def padBoth (width : Nat) (cs : List Char) : List Char :=
  padEnd width (spaces ((width - cs.length) / 2) ++ cs)

/-- A text whose lines all end in a line feed, whichever of the three customary ends they had. -/
def unifyLineEnds : List Char → List Char
  | '\r' :: '\n' :: cs => '\n' :: unifyLineEnds cs
  | '\r' :: cs => '\n' :: unifyLineEnds cs
  | c :: cs => c :: unifyLineEnds cs
  | [] => []

end Text
end PlanLogic
