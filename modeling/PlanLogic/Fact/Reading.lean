import PlanLogic.Decimal.Layout
import PlanLogic.Decimal.Literal
import PlanLogic.Fact.Basic
import PlanLogic.Token.Basic

/-!
# Facts as text

A fact is written as symbols between one pair of parentheses, the first of them its name; an assignment is
written as `(= (name object …) number)`.  Blanks may stand around every symbol.
-/

namespace PlanLogic

/-- A reason for refusing the text of a fact or assignment. -/
inductive FactError where
  /-- The text is not a list of symbols between parentheses. -/
  | notFact (text : String)
  /-- The name is an equality sign or a variable. -/
  | name (name : String)
  /-- The text is not an equality sign, a head and a value between parentheses. -/
  | notAssignment (text : String)
  /-- The value is no number. -/
  | value (text : String)
deriving Repr, DecidableEq

/-- The wording of a reason. -/
def FactError.message : FactError → String
  | .notFact text => "Expected predicate: (name arg ...), got: " ++ text
  | .name found => "Invalid predicate name: " ++ found
  | .notAssignment text => "Expected function assignment: (= (name arg ...) value), got: " ++ text
  | .value text => "Function value must be numeric, got: " ++ text

/-- The text between an opening parenthesis at the start and a closing one at the end. -/
def enclosed? : List Char → Option (List Char)
  | '(' :: cs => if cs.getLast? = some ')' then some cs.dropLast else none
  | _ => none

namespace Fact

/-- The symbols between one pair of parentheses that encloses the whole text. -/
def symbols? (cs : List Char) : Option (List (List Char)) :=
  (enclosed? (Text.strip cs)).bind fun inner =>
    if inner.any Token.isParenthesis then none else some (Text.words inner)

/-- Whether a symbol cannot be the name of a fact. -/
def isRefusedName (name : List Char) : Bool :=
  name.head? == some '?' || name == ['=']

/-- The fact that a text denotes. -/
def ofText (text : String) : Except FactError Fact :=
  match symbols? text.toList with
  | none | some [] => .error (.notFact text)
  | some (name :: args) =>
    if isRefusedName name then
      .error (.name (String.ofList name))
    else
      .ok ⟨String.ofList name, args.map String.ofList⟩

end Fact

namespace Assignment

/-- The text of an assignment. -/
def text (assignment : Assignment) : String :=
  "(= " ++ assignment.head.key ++ " " ++ Decimal.plainText assignment.value ++ ")"

/-- What follows `(`, blanks and an equality sign at the start of a text. -/
def afterEquals? : List Char → Option (List Char)
  | '(' :: cs =>
    match Text.stripStart cs with
    | '=' :: rest => some rest
    | _ => none
  | _ => none

/-- A head between parentheses at the start of a text, with its parentheses, and what follows it. -/
def takeHead? : List Char → Option (List Char × List Char)
  | '(' :: cs =>
    match cs.dropWhile fun c => !Token.isParenthesis c with
    | ')' :: rest =>
      some ('(' :: (cs.takeWhile fun c => !Token.isParenthesis c) ++ [')'], rest)
    | _ => none
  | _ => none

/-- The value after a head: blanks, a symbol and the closing parenthesis that ends the text. -/
def valueText? (cs : List Char) : Option (List Char) :=
  let start := Text.stripStart cs
  let symbol := start.takeWhile Token.isSymbolChar
  if start.length < cs.length ∧ symbol ≠ [] ∧
      Text.stripStart (start.dropWhile Token.isSymbolChar) = [')'] then
    some symbol
  else
    none

/-- The head and the value of an assignment, as text. -/
def parts? (cs : List Char) : Option (List Char × List Char) :=
  (afterEquals? (Text.strip cs)).bind fun afterEquals =>
    -- No blank is needed between the equality sign and the head.
    (takeHead? (Text.stripStart afterEquals)).bind fun head =>
      (valueText? head.2).map fun value => (head.1, value)

/-- Whether a line of a document is meant as an assignment: its equality sign is followed by a blank. -/
def isMeant (text : String) : Bool :=
  match afterEquals? (Text.strip text.toList) with
  | some (c :: _) => Text.isBlank c
  | _ => false

/-- The assignment that a text denotes. -/
def ofText (text : String) : Except FactError Assignment :=
  match parts? text.toList with
  | none => .error (.notAssignment text)
  | some (head, value) =>
    match Fact.ofText (String.ofList head) with
    | .error e => .error e
    | .ok fact =>
      match Decimal.numeral? value with
      | none => .error (.value (String.ofList value))
      | some number => .ok ⟨fact, number⟩

end Assignment
end PlanLogic
