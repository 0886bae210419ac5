/-!
# Facts

A fact is a name with the names of objects; an assignment gives such a head a number.  The key of a fact is
its text, and the numeric value of a head is looked up by that text.
-/

namespace PlanLogic

/-- A name with the names of objects. -/
structure Fact where
  name : String
  args : List String
deriving Repr, DecidableEq

namespace Fact

/-- The text of a fact. -/
def key (fact : Fact) : String :=
  "(" ++ fact.name ++ String.join (fact.args.map (" " ++ ·)) ++ ")"

end Fact

/-- A head with its number. -/
structure Assignment where
  head : Fact
  value : Float
deriving Repr

end PlanLogic
