import PlanLogic.Condition.Parser
import Mathlib.Data.List.Forall2

/-!
# The grammar of conditions

Which lists of token texts denote which conditions in a scope.  The relations below mention no reader: they
say what a word looks like from the outside in, one rule for each way to write a condition or an expression.

* `ArgumentOf` — a token is a variable of the scope or the name of an object.
* `DenotesExpression` — a number, a variable, a constant, a function term or an arithmetic operation.
* `Declares` — a typed list, as it stands in a quantifier or in the declaration of a scope.
* `Denotes` and `DenoteParts` — a condition, where `none` is the empty one, and a list of conditions from
which the empty ones are dropped.

Names of constructs are keywords in any mixture of upper and lower case, letter by letter; no other letters of any
script stand for those of a keyword.  The scope grows only inside the body of a quantifier.
-/

namespace PlanLogic

/-- A token that may stand for itself: no parenthesis and no variable. -/
structure IsWord (text : String) : Prop where
  noParenthesis : isParenthesisText text = false
  noVariable : isVariable text = false

/-- A token as an argument: a variable of the scope or the name of an object. -/
inductive ArgumentOf (scope : Scope) : String → Term → Prop
  | slot {text : String} {slot : Nat} (hVariable : isVariable text = true)
      (hSlot : scope.slotOf? text = some slot) : ArgumentOf scope text (.slot slot)
  | object {text : String} (hWord : IsWord text) : ArgumentOf scope text (.object text)

/-- A list of tokens as a list of arguments. -/
abbrev ArgumentsOf (scope : Scope) : List String → List Term → Prop :=
  List.Forall₂ (ArgumentOf scope)

/-- A word as an expression. -/
inductive DenotesExpression (scope : Scope) : List String → Expression → Prop
  | number {text : String} {value : Float} (hWord : IsWord text)
      (hValue : Decimal.literal? text.toList = some value) :
      DenotesExpression scope [text] (.number value)
  | slot {text : String} {slot : Nat} (hVariable : isVariable text = true)
      (hSlot : scope.slotOf? text = some slot) : DenotesExpression scope [text] (.variable slot)
  | constant {text : String} (hWord : IsWord text) (hValue : Decimal.literal? text.toList = none) :
      DenotesExpression scope [text] (.constant text)
  | function {name : String} {words : List String} {args : List Term} (hName : IsWord name)
      (hOperator : Arithmetic.ofSymbol? name = none) (hArgs : ArgumentsOf scope words args) :
      DenotesExpression scope ("(" :: name :: (words ++ [")"])) (.function ⟨name, args⟩)
  | arithmetic (op : Arithmetic) {leftWords rightWords : List String} {left right : Expression}
      (hLeft : DenotesExpression scope leftWords left)
      (hRight : DenotesExpression scope rightWords right) :
      DenotesExpression scope ("(" :: op.symbol :: (leftWords ++ rightWords ++ [")"]))
        (.arithmetic op left right)

/-- A word as a typed list: groups of names, each with a dash and a type after it, and then names without a
type.  Neither a name nor a type is a parenthesis or a dash. -/
inductive Declares : List String → List Binding → Prop
  | untyped {names : List String} (hNames : ∀ name ∈ names, Scope.isNoTypeName name = false) :
      Declares names (names.map (⟨·, Binding.defaultType⟩))
  | typed {names words : List String} {type : String} {bindings : List Binding} (hSome : names ≠ [])
      (hNames : ∀ name ∈ names, Scope.isNoTypeName name = false)
      (hType : Scope.isNoTypeName type = false) (hRest : Declares words bindings) :
      Declares (names ++ "-" :: type :: words) (names.map (⟨·, type⟩) ++ bindings)

namespace Condition

/-- The keywords, which are no names of predicates. -/
def keywords : List String :=
  ["and", "or", "not", "exists"] ++ [">=", ">", "<=", "<", "="] ++
    ["assign", "increase", "decrease", "scale-up", "scale-down"] ++
    ["forall", "imply", "when", "preference", "either"]

/-- A name is a keyword, each letter in upper or lower case. -/
def IsCasing (name keyword : String) : Prop :=
  List.Forall₂ (fun c letter => c = letter ∨ c = letter.toUpper) name.toList keyword.toList

/-- A name is some keyword. -/
def IsKeyword (name : String) : Prop :=
  ∃ keyword ∈ keywords, IsCasing name keyword

instance (name keyword : String) : Decidable (IsCasing name keyword) :=
  inferInstanceAs (Decidable (List.Forall₂ _ _ _))

instance (name : String) : Decidable (IsKeyword name) :=
  inferInstanceAs (Decidable (∃ keyword ∈ keywords, IsCasing name keyword))

theorem IsCasing.refl (keyword : String) : IsCasing keyword keyword :=
  List.forall₂_same.mpr fun _ _ => Or.inl rfl

mutual

/-- A word as a condition in a scope. -/
inductive Denotes : Scope → List String → Option Condition → Prop
  | empty {scope : Scope} : Denotes scope ["(", ")"] none
  | conjunction {scope : Scope} {name : String} {words : List String} {parts : List Condition}
      (hName : IsCasing name "and") (hParts : DenoteParts scope words parts) :
      Denotes scope ("(" :: name :: (words ++ [")"])) (some (.conjunction parts))
  | disjunction {scope : Scope} {name : String} {words : List String} {parts : List Condition}
      (hName : IsCasing name "or") (hParts : DenoteParts scope words parts) :
      Denotes scope ("(" :: name :: (words ++ [")"])) (some (.disjunction parts))
  | negation {scope : Scope} {name : String} {words : List String} {part : Condition}
      (hName : IsCasing name "not") (hPart : Denotes scope words (some part)) :
      Denotes scope ("(" :: name :: (words ++ [")"])) (some (.negation part))
  | atom {scope : Scope} {name : String} {words : List String} {args : List Term}
      (hName : ¬ IsKeyword name) (hWord : IsWord name) (hArgs : ArgumentsOf scope words args) :
      Denotes scope ("(" :: name :: (words ++ [")"])) (some (.atom ⟨name, args⟩))
  | comparison {scope : Scope} {name : String} {leftWords rightWords : List String}
      {left right : Expression} (op : Comparison) (hName : IsCasing name op.symbol)
      (hLeft : DenotesExpression scope leftWords left)
      (hRight : DenotesExpression scope rightWords right) :
      Denotes scope ("(" :: name :: (leftWords ++ rightWords ++ [")"]))
        (some (.comparison op left right))
  | update {scope : Scope} {name : String} {targetWords amountWords : List String} {target : Atom}
      {amount : Expression} (op : Update) (hName : IsCasing name op.symbol)
      (hTarget : DenotesExpression scope targetWords (.function target))
      (hAmount : DenotesExpression scope amountWords amount) :
      Denotes scope ("(" :: name :: (targetWords ++ amountWords ++ [")"]))
        (some (.update op target amount))
  /-- The variables take the slots after those of the scope, and the body, which may be empty, sees them. -/
  | quantified {scope : Scope} {name : String} {declared words : List String} {bindings : List Binding}
      {body : Option Condition} (hName : IsCasing name "exists") (hBindings : Declares declared bindings)
      (hVariables : ∀ binding ∈ bindings, isVariable binding.name = true)
      (hBody : Denotes (scope.extend bindings) words body) :
      Denotes scope ("(" :: name :: "(" :: (declared ++ ")" :: (words ++ [")"])))
        (some (.quantified bindings (List.range' scope.size bindings.length) body))

/-- A word as a list of conditions, the empty ones left out. -/
inductive DenoteParts : Scope → List String → List Condition → Prop
  | nil {scope : Scope} : DenoteParts scope [] []
  | cons {scope : Scope} {words rest : List String} {part : Option Condition} {parts : List Condition}
      (hPart : Denotes scope words part) (hParts : DenoteParts scope rest parts) :
      DenoteParts scope (words ++ rest) (part.toList ++ parts)

end

end Condition
end PlanLogic
