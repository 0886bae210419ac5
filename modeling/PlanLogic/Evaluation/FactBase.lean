import PlanLogic.Fact.Basic
import PlanLogic.Tree.Rendering

/-!
# Fact bases

What evaluation asks of the state it runs against.  The class fixes the questions and changes only; how a
fact base answers them, whether an answer can fail, and what becomes of a diagnostic are matters of the monad.
-/

namespace PlanLogic

/-- A malformed part of a tree, met during evaluation. -/
structure Diagnostic where
  tree : Tree
  reference : Int
deriving Repr

/-- The line that reports a diagnostic. -/
def Diagnostic.text (diagnostic : Diagnostic) : String :=
  "evaluate: Error parsing expression [" ++ diagnostic.tree.text diagnostic.reference ++ "]\n"

/-- The questions and changes that evaluation needs. -/
class FactBase (m : Type → Type) where
  /-- Whether a fact is known. -/
  holds : Fact → m Bool
  /-- Adds a fact; the answer says whether that was possible. -/
  add : Fact → m Bool
  /-- Removes a fact; the answer says whether that was possible. -/
  remove : Fact → m Bool
  /-- The number of the head with a given text. -/
  value? : String → m (Option Float)
  /-- Gives a head a number; the answer says whether that was possible. -/
  write : Assignment → m Bool
  /-- The objects that a quantified variable ranges over. -/
  objects : m (List String)
  /-- Takes note of a malformed part of a tree. -/
  report : Diagnostic → m Unit

end PlanLogic
