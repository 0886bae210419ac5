/-!
# Operators

The operators of the condition language and their symbols.  Comparisons and arithmetic join two expressions;
an update changes the value of a function.
-/

namespace PlanLogic

/-- A comparison of two expressions. -/
inductive Comparison where
  | atLeast
  | above
  | atMost
  | below
  | equal
deriving Repr, DecidableEq

namespace Comparison

/-- How a comparison is written. -/
def symbol : Comparison → String
  | .atLeast => ">="
  | .above => ">"
  | .atMost => "<="
  | .below => "<"
  | .equal => "="

/-- The comparison that a symbol stands for. -/
def ofSymbol? (text : String) : Option Comparison :=
  [atLeast, above, atMost, below, equal].find? fun op => op.symbol == text

@[simp] theorem ofSymbol?_symbol (op : Comparison) : ofSymbol? op.symbol = some op := by
  cases op <;> rfl

end Comparison

/-- An arithmetic operation on two expressions. -/
inductive Arithmetic where
  | add
  | subtract
  | multiply
  | divide
deriving Repr, DecidableEq

namespace Arithmetic

/-- How an operation is written. -/
def symbol : Arithmetic → String
  | .add => "+"
  | .subtract => "-"
  | .multiply => "*"
  | .divide => "/"

/-- The operation that a symbol stands for. -/
def ofSymbol? (text : String) : Option Arithmetic :=
  [add, subtract, multiply, divide].find? fun op => op.symbol == text

@[simp] theorem ofSymbol?_symbol (op : Arithmetic) : ofSymbol? op.symbol = some op := by
  cases op <;> rfl

end Arithmetic

/-- A change of the value of a function. -/
inductive Update where
  | assign
  | increase
  | decrease
  | scaleUp
  | scaleDown
deriving Repr, DecidableEq

namespace Update

/-- How an update is written. -/
def symbol : Update → String
  | .assign => "assign"
  | .increase => "increase"
  | .decrease => "decrease"
  | .scaleUp => "scale-up"
  | .scaleDown => "scale-down"

/-- The update that a symbol stands for. -/
def ofSymbol? (text : String) : Option Update :=
  [assign, increase, decrease, scaleUp, scaleDown].find? fun op => op.symbol == text

@[simp] theorem ofSymbol?_symbol (op : Update) : ofSymbol? op.symbol = some op := by
  cases op <;> rfl

end Update
end PlanLogic
