import PlanLogic.Console.Marks
import PlanLogic.Console.Table

/-!
# A plain console

A console without styles: it shows texts without their marks and without the characters that would ring a bell or
move the cursor other than to the next line.  Tabs become spaces up to the next of the tab stops, eight columns
apart.  Every text ends its line.
-/

namespace PlanLogic
namespace Console

/-- Whether a character rings the bell or moves the cursor: bell, backspace, vertical tab, form feed and
carriage return. -/
def isControl (c : Char) : Bool :=
  c == '\x07' || c == '\x08' || c == '\x0b' || c == '\x0c' || c == '\x0d'

/-- A text without marks and control characters; its tabs are left. -/
def visible (text : String) : Except Fault String :=
  (withoutMarks text).map fun cs => String.ofList (cs.filter fun c => !isControl c)

/-- A table whose texts have no marks and control characters. -/
def Table.visible (table : Table) : Except Fault Table := do
  let title ← Console.visible table.title
  let columns ← table.columns.mapM fun column => do
    return { column with heading := ← Console.visible column.heading }
  let rows ← table.rows.mapM fun row => row.mapM Console.visible
  return ⟨title, columns, rows⟩

/-- The plain console. -/
def standard : Console where
  text content := (visible content).map fun shown => String.ofList (withoutTabs shown.toList ++ ['\n'])
  table content := content.visible.map Table.text

end Console
end PlanLogic
