import PlanLogic.Text.Spacing

/-!
# Files

The files that a run of the program can see, by path.  Two paths mean the same file if they have the same
components; empty ones and those that are a single point do not count.
-/

namespace PlanLogic

/-- The components of a path, and whether it starts at the root. -/
structure Location where
  absolute : Bool
  components : List (List Char)
deriving Repr, DecidableEq

/-- What a path means. -/
def Location.ofPath (path : String) : Location where
  absolute := path.toList.head? == some '/'
  components := (Text.splitAt '/' path.toList).filter fun component => !component.isEmpty && component != ['.']

/-- The texts of files, by path. -/
abbrev Files := List (String × String)

namespace Files

/-- Whether an entry is the file at a path. -/
def isAt (path : String) (entry : String × String) : Bool :=
  Location.ofPath entry.1 == Location.ofPath path

/-- The text of the file at a path, every line of it ending in a line feed. -/
def read? (files : Files) (path : String) : Option String :=
  (files.find? (isAt path)).map fun entry => String.ofList (Text.unifyLineEnds entry.2.toList)

/-- The files with another text at a path; a file that is not there stays so. -/
def write (files : Files) (path text : String) : Files :=
  files.map fun entry => if isAt path entry then (entry.1, text) else entry

@[simp] theorem map_fst_write (files : Files) (path text : String) :
    (files.write path text).map Prod.fst = files.map Prod.fst := by
  simp only [write, List.map_map]
  refine List.map_congr_left fun entry _ => ?_
  simp only [Function.comp]
  split <;> rfl

end Files
end PlanLogic
