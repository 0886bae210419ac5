import PlanLogic.Condition.Basic
import PlanLogic.Decimal.Layout
import PlanLogic.Placeholder

/-!
# Printing conditions

A condition is printed with one construct a line, each level indented by one more tab.  Slots are shown by
their names in a scope; a slot beyond the scope is shown as its placeholder.
-/

namespace PlanLogic

/-- An argument as text. -/
def Term.text (scope : Scope) : Term → String
  | .slot index => (scope.nameAt? index).getD (placeholder index)
  | .object word => word

/-- A name and its arguments between parentheses. -/
def Atom.text (scope : Scope) (atom : Atom) : String :=
  "( " ++ atom.name ++ String.join (atom.args.map fun arg => " " ++ arg.text scope) ++ " )"

namespace Expression

/-- An expression as text. -/
def text (scope : Scope) : Expression → String
  | .number value => Decimal.plainText value
  | .variable slot => (Term.slot slot).text scope
  | .constant name => name
  | .function head => head.text scope
  | .arithmetic op left right =>
    "( " ++ op.symbol ++ " " ++ left.text scope ++ " " ++ right.text scope ++ " )"

end Expression

namespace Condition

/-- The start of a line. -/
def indentation (depth : Nat) : String :=
  String.ofList (List.replicate depth '\t')

/-- A typed list as text. -/
def typedListText (bindings : List Binding) : String :=
  String.intercalate " " (bindings.map fun binding => binding.name ++ " - " ++ binding.type)

/-- The text of the empty condition. -/
def emptyText (depth : Nat) : String :=
  indentation depth ++ "()"

mutual

/-- A condition as text, indented by `depth` tabs. -/
def text (scope : Scope) (depth : Nat) : Condition → String
  | .conjunction parts =>
    indentation depth ++ "( and\n" ++ partsText scope (depth + 1) parts ++ indentation depth ++ ")"
  | .disjunction parts =>
    indentation depth ++ "( or\n" ++ partsText scope (depth + 1) parts ++ indentation depth ++ ")"
  | .negation part =>
    indentation depth ++ "( not\n" ++ text scope (depth + 1) part ++ "\n" ++ indentation depth ++ ")"
  | .atom head => indentation depth ++ head.text scope
  | .comparison op left right =>
    indentation depth ++ "( " ++ op.symbol ++ " " ++ left.text scope ++ " " ++ right.text scope ++ " )"
  | .update op target amount =>
    indentation depth ++ "( " ++ op.symbol ++ " " ++ target.text scope ++ " " ++ amount.text scope ++ " )"
  | .quantified bindings _ body =>
    indentation depth ++ "( exists ( " ++ typedListText bindings ++ " )\n" ++
      bodyText (scope.extend bindings) (depth + 1) body ++ "\n" ++ indentation depth ++ ")"

/-- The parts of a condition, a line feed after each. -/
def partsText (scope : Scope) (depth : Nat) : List Condition → String
  | [] => ""
  | part :: parts => text scope depth part ++ "\n" ++ partsText scope depth parts

/-- A possibly empty condition as text. -/
def bodyText (scope : Scope) (depth : Nat) : Option Condition → String
  | none => emptyText depth
  | some condition => text scope depth condition

end

end Condition
end PlanLogic
