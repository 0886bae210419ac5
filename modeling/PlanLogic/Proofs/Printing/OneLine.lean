import PlanLogic.Proofs.Compilation.Binding
import PlanLogic.Proofs.Evaluation.Compiled
import PlanLogic.Proofs.Printing.RoundTrip

/-!
# The line of a tree is read back

A tree can be written on one line, where the variables stand as placeholders.  The line of the tree that a
condition was lowered to is again a text of that condition, in a scope whose variables are called by the
placeholders of their slots; only the variables of its quantifiers have other names.  A quantifier without a
body is written without one, and such a line is not read back.
-/

namespace PlanLogic

open Token (IsSymbol IsLexeme Spells AtBoundary texts_opening texts_closing texts_space texts_symbol)
open Outline

/-! ## The line of an outline -/

namespace Outline

mutual

/-- The line of an outline. -/
def line : Outline → String
  | .mk node children => Tree.nodeText node (if Tree.showsChildren node.kind then lines children else [])

/-- The lines of outlines. -/
def lines : List Outline → List String
  | [] => []
  | outline :: outlines => outline.line :: lines outlines

end

end Outline

namespace Tree

mutual

/-- The text below the first node of a block is the line of its outline. -/
theorem textWithin_layout (tree : Tree) :
    ∀ (outline : Outline) (depth start : Nat), outline.size ≤ depth →
      tree.HasBlock start (outline.layout start) → tree.textWithin depth start = outline.line
  | .mk node children, 0, start, hDepth, _ => by
      rw [Outline.size] at hDepth
      omega
  | .mk node children, depth + 1, start, hDepth, hBlock => by
      rw [layout, hasBlock_cons] at hBlock
      rw [Outline.size] at hDepth
      have hChildren := map_textWithin_layouts tree children depth (start + 1) (by omega) hBlock.2
      rw [textWithin, hBlock.1]
      simp only [hChildren]
      rfl

theorem map_textWithin_layouts (tree : Tree) :
    ∀ (outlines : List Outline) (depth start : Nat), sizes outlines ≤ depth →
      tree.HasBlock start (layouts start outlines) →
        (positions start outlines).map (tree.textWithin depth) = lines outlines
  | [], _, _, _, _ => rfl
  | outline :: outlines, depth, start, hDepth, hBlock => by
      rw [layouts, hasBlock_append, length_layout] at hBlock
      rw [sizes] at hDepth
      have hFirst := textWithin_layout tree outline depth start (by omega) hBlock.1
      have hRest := map_textWithin_layouts tree outlines depth (start + outline.size) (by omega) hBlock.2
      rw [positions, List.map_cons, hFirst, hRest, lines]

end

/-- The line of a lowered condition is that of its outline. -/
theorem rootText_ofCondition (condition : Condition) (objects : List String) :
    (ofCondition (some condition) objects).rootText = (condition.outline (Term.lowered objects)).line := by
  have hSize := size_ofCondition condition objects
  rw [rootText, text, isEmpty_ofCondition]
  exact textWithin_layout _ _ _ 0 (by omega) (hasBlock_ofCondition condition objects)

end Tree

/-! ## Variables called by placeholders -/

/-- Every variable of a scope is called by the placeholder of its slot. -/
def Scope.Numbered (scope : Scope) : Prop :=
  scope.bindings.map Binding.name = (List.range scope.size).map placeholder

instance (scope : Scope) : Decidable scope.Numbered :=
  inferInstanceAs (Decidable (_ = _))

/-- The variables of a quantifier under the placeholders of their slots. -/
def numberedBindings (slots : List Nat) (bindings : List Binding) : List Binding :=
  (slots.zip bindings).map fun pair => ⟨placeholder pair.1, pair.2.type⟩

namespace Condition

mutual

/-- The condition whose quantified variables are called by the placeholders of their slots. -/
def numbered : Condition → Condition
  | .conjunction parts => .conjunction (partsNumbered parts)
  | .disjunction parts => .disjunction (partsNumbered parts)
  | .negation part => .negation (numbered part)
  | .atom head => .atom head
  | .comparison op left right => .comparison op left right
  | .update op target amount => .update op target amount
  | .quantified bindings slots body => .quantified (numberedBindings slots bindings) slots (bodyNumbered body)

/-- Conditions whose quantified variables are called by the placeholders of their slots. -/
def partsNumbered : List Condition → List Condition
  | [] => []
  | part :: parts => numbered part :: partsNumbered parts

/-- A possibly empty condition whose quantified variables are called by the placeholders of their slots. -/
def bodyNumbered : Option Condition → Option Condition
  | none => none
  | some condition => some (numbered condition)

end

mutual

/-- Every quantifier in a condition has a body. -/
def HasBodies : Condition → Prop
  | .conjunction parts => PartsHaveBodies parts
  | .disjunction parts => PartsHaveBodies parts
  | .negation part => HasBodies part
  | .atom _ => True
  | .comparison _ _ _ => True
  | .update _ _ _ => True
  | .quantified _ _ body => IsBody body

/-- Every quantifier in a list of conditions has a body. -/
def PartsHaveBodies : List Condition → Prop
  | [] => True
  | part :: parts => HasBodies part ∧ PartsHaveBodies parts

/-- There is a condition, and every quantifier in it has a body. -/
def IsBody : Option Condition → Prop
  | none => False
  | some condition => HasBodies condition

end

end Condition

theorem Scope.exists_slotOf? {bindings : List Binding} {name : String} (hMem : name ∈ bindings.map Binding.name) :
    ∃ slot, Scope.slotOf? ⟨bindings⟩ name = some slot := by
  rw [slotOf?]
  induction bindings with
  | nil => exact absurd hMem List.not_mem_nil
  | cons binding bindings ih =>
      rw [lastSlot?]
      cases hInner : lastSlot? name bindings with
      | some slot => exact ⟨slot + 1, rfl⟩
      | none =>
          rw [List.map_cons, List.mem_cons] at hMem
          rcases hMem with hHere | hLater
          · exact ⟨0, if_pos hHere.symm⟩
          · obtain ⟨slot, hSlot⟩ := ih hLater
            exact absurd (hInner.symm.trans hSlot) (Option.some_ne_none slot).symm

theorem map_name_numberedBindings {slots : List Nat} {bindings : List Binding}
    (hLength : slots.length = bindings.length) :
    (numberedBindings slots bindings).map Binding.name = slots.map placeholder := by
  have hZip := List.map_fst_zip (Nat.le_of_eq hLength)
  rw [numberedBindings, List.map_map, ← congrArg (List.map _) hZip, List.map_map]
  rfl

theorem length_numberedBindings {slots : List Nat} {bindings : List Binding}
    (hLength : slots.length = bindings.length) : (numberedBindings slots bindings).length = bindings.length := by
  rw [numberedBindings, List.length_map, List.length_zip, hLength, Nat.min_self]

namespace Scope.Numbered

variable {scope : Scope} (hNumbered : scope.Numbered)

include hNumbered

theorem nameAt?_eq {slot : Nat} (hSlot : slot < scope.size) : scope.nameAt? slot = some (placeholder slot) := by
  rw [nameAt?, ← List.getElem?_map, hNumbered, List.getElem?_map, List.getElem?_range hSlot]
  rfl

theorem slotOf?_placeholder {slot : Nat} (hSlot : slot < scope.size) :
    scope.slotOf? (placeholder slot) = some slot := by
  have hMem : placeholder slot ∈ scope.bindings.map Binding.name := by
    rw [hNumbered]
    exact List.mem_map_of_mem (List.mem_range.mpr hSlot)
  obtain ⟨found, hFound⟩ := exists_slotOf? hMem
  have hName := Scope.nameAt?_of_slotOf? hFound
  rw [hNumbered.nameAt?_eq (lt_size_of_slotOf? hFound)] at hName
  rw [hFound, placeholder_injective (Option.some.inj hName)]

theorem extend (bindings : List Binding) :
    (scope.extend (numberedBindings (List.range' scope.size bindings.length) bindings)).Numbered := by
  have hLength : (List.range' scope.size bindings.length).length = bindings.length := List.length_range'
  rw [Numbered, size_extend, length_numberedBindings hLength, Scope.extend, List.map_append, hNumbered,
    map_name_numberedBindings hLength, ← List.map_append, List.range_eq_range', List.range_eq_range',
    ← List.range'_append_1, Nat.zero_add]

end Scope.Numbered

/-! ## Words of a line -/

theorem isSymbol_placeholder (slot : Nat) : IsSymbol (placeholder slot) := by
  obtain ⟨hSome, hChars⟩ := isName_placeholder slot
  refine ⟨hSome, hChars, ?_⟩
  rw [placeholder, String.toList_append]
  exact fun hFirst => absurd (Option.some.inj hFirst) (by decide)

/-- An argument is written as a word for it. -/
theorem argumentOf_lowered {scope other : Scope} (hNumbered : other.Numbered) (hSize : other.size = scope.size)
    {word : String} {arg : Term} (hArg : ArgumentOf scope word arg) (hLexeme : IsLexeme word) :
    ArgumentOf other (arg.lowered []) arg ∧ IsSymbol (arg.lowered []) := by
  cases hArg with
  | @slot slot hVariable hSlot =>
      have hFound := hNumbered.slotOf?_placeholder (hSize.symm ▸ lt_size_of_slotOf? hSlot)
      exact ⟨.slot (isVariable_placeholder slot) hFound, isSymbol_placeholder slot⟩
  | object hWord => exact ⟨.object hWord, isSymbol_of_isWord hLexeme hWord⟩

theorem argumentsOf_lowered {scope other : Scope} (hNumbered : other.Numbered) (hSize : other.size = scope.size)
    {words : List String} {args : List Term} (hArgs : ArgumentsOf scope words args)
    (hLexemes : ∀ word ∈ words, IsLexeme word) :
    ArgumentsOf other (args.map (Term.lowered [])) args ∧ ∀ word ∈ args.map (Term.lowered []), IsSymbol word := by
  induction hArgs with
  | nil => exact ⟨.nil, fun _ hMem => absurd hMem List.not_mem_nil⟩
  | cons hArg _ ih =>
      obtain ⟨hHere, hSymbol⟩ := argumentOf_lowered hNumbered hSize hArg (hLexemes _ List.mem_cons_self)
      obtain ⟨hLater, hSymbols⟩ := ih fun word hMem => hLexemes word (List.mem_cons_of_mem _ hMem)
      exact ⟨.cons hHere hLater, List.forall_mem_cons.mpr ⟨hSymbol, hSymbols⟩⟩

theorem spells_key {fact : Fact} (hName : IsSymbol fact.name) (hArgs : ∀ arg ∈ fact.args, IsSymbol arg) :
    Spells fact.key ("(" :: fact.name :: (fact.args ++ [")"])) := by
  intro rest _
  obtain ⟨hBoundary, hTexts⟩ := Token.spells_spaced hArgs (Token.atBoundary_closing rest)
  have hSplit : fact.key.toList ++ rest =
      '(' :: (fact.name.toList ++ ((String.join (fact.args.map (" " ++ ·))).toList ++ ')' :: rest)) := by
    simp [Fact.key]
  rw [hSplit, texts_opening, texts_symbol hName hBoundary, hTexts, texts_closing]
  simp

/-- Parts between a symbol and a closing parenthesis. -/
theorem spells_form {symbol parts : String} {words : List String} (hSymbol : IsSymbol symbol)
    (hParts : Spells parts words) :
    Spells ("(" ++ symbol ++ " " ++ parts ++ ")") ("(" :: symbol :: (words ++ [")"])) := by
  intro rest _
  have hSplit : ("(" ++ symbol ++ " " ++ parts ++ ")").toList ++ rest =
      '(' :: (symbol.toList ++ ' ' :: (parts.toList ++ ')' :: rest)) := by
    simp
  rw [hSplit, texts_opening, texts_symbol hSymbol (Token.atBoundary_space _), texts_space,
    hParts _ (Token.atBoundary_closing rest), texts_closing]
  simp

/-- Two operands between an operator and a closing parenthesis. -/
theorem spells_operands {symbol left right : String} {leftWords rightWords : List String}
    (hSymbol : IsSymbol symbol) (hLeft : Spells left leftWords) (hRight : Spells right rightWords) :
    Spells ("(" ++ symbol ++ " " ++ String.intercalate " " [left, right] ++ ")")
      ("(" :: symbol :: (leftWords ++ rightWords ++ [")"])) := by
  have hBoth := Token.spells_intercalate (.cons hLeft (.cons hRight .nil))
  have hForm := spells_form hSymbol hBoth
  rwa [List.flatten_cons, List.flatten_cons, List.flatten_nil, List.append_nil] at hForm

theorem isEmpty_of_spells {text : String} {words : List String} (hSpells : Spells text words)
    (hWords : words ≠ []) : text.isEmpty = false := by
  rw [String.isEmpty_eq_false_iff]
  rintro rfl
  have hNone : [] = words := by simpa using hSpells [] trivial
  exact hWords hNone.symm

/-- The head of an atom is written as words for it. -/
theorem spells_head {scope other : Scope} (hNumbered : other.Numbered) (hSize : other.size = scope.size)
    {name : String} {words : List String} {args : List Term} (hName : IsSymbol name)
    (hArgs : ArgumentsOf scope words args) (hLexemes : ∀ word ∈ words, IsLexeme word) (kind : NodeKind) :
    ∃ printed, Spells
        (Node.fact { kind := kind, name := name, parameters := Atom.namedParameters (Term.lowered []) ⟨name, args⟩ }).key
        ("(" :: name :: (printed ++ [")"])) ∧ ArgumentsOf other printed args := by
  obtain ⟨hLowered, hSymbols⟩ := argumentsOf_lowered hNumbered hSize hArgs hLexemes
  have hFact := Evaluation.fact_namedParameters (Term.lowered []) ⟨name, args⟩ kind
  refine ⟨args.map (Term.lowered []), ?_, hLowered⟩
  rw [hFact]
  exact spells_key hName hSymbols

/-- An expression is written with words that denote it in a scope whose variables are called by placeholders. -/
theorem spells_line_expression {scope other : Scope} (hNumbered : other.Numbered) (hSize : other.size = scope.size)
    {words : List String} {expression : Expression} (hDenotes : DenotesExpression scope words expression)
    (hLexemes : ∀ word ∈ words, IsLexeme word) (hFinite : ∀ x ∈ expression.numbers, x.isFinite = true) :
    ∃ printed, Spells (expression.outline (Term.lowered [])).line printed ∧
      DenotesExpression other printed expression := by
  induction hDenotes with
  | @number text value hWord hValue =>
      have hValueFinite := hFinite value (List.mem_singleton.mpr rfl)
      obtain ⟨hSymbol, hPrinted⟩ := plainText_word hValueFinite
      refine ⟨[Decimal.plainText value], fun rest hRest => texts_symbol hSymbol hRest, .number hPrinted ?_⟩
      exact Decimal.literal?_text Decimal.Layout.plain hValueFinite
  | @slot text slot hVariable hSlot =>
      have hFound := hNumbered.slotOf?_placeholder (hSize.symm ▸ lt_size_of_slotOf? hSlot)
      exact ⟨[placeholder slot], fun rest hRest => texts_symbol (isSymbol_placeholder slot) hRest,
        .slot (isVariable_placeholder slot) hFound⟩
  | @constant text hWord hValue =>
      have hSymbol := isSymbol_of_isWord (hLexemes text (List.mem_singleton.mpr rfl)) hWord
      exact ⟨[text], fun rest hRest => texts_symbol hSymbol hRest, .constant hWord hValue⟩
  | @function name words args hName hOperator hArgs =>
      have hSymbol := isSymbol_of_isWord (hLexemes name (by simp)) hName
      obtain ⟨printed, hSpells, hPrinted⟩ := spells_head hNumbered hSize hSymbol hArgs
        (fun word hMem => hLexemes word (by simp [hMem])) .function
      exact ⟨_, hSpells, .function hName hOperator hPrinted⟩
  | @arithmetic op leftWords rightWords left right hLeft hRight ihLeft ihRight =>
      obtain ⟨leftPrinted, hLeftSpells, hLeftDenotes⟩ :=
        ihLeft (fun word hMem => hLexemes word (by simp [hMem]))
          fun x hMem => hFinite x (List.mem_append_left _ hMem)
      obtain ⟨rightPrinted, hRightSpells, hRightDenotes⟩ :=
        ihRight (fun word hMem => hLexemes word (by simp [hMem]))
          fun x hMem => hFinite x (List.mem_append_right _ hMem)
      exact ⟨_, spells_operands (isSymbol_arithmetic op) hLeftSpells hRightSpells,
        .arithmetic op hLeftDenotes hRightDenotes⟩

/-! ## Conditions -/

namespace Condition

/-- The line of a possibly empty condition. -/
def bodyLine : Option Condition → String
  | none => ""
  | some condition => (condition.outline (Term.lowered [])).line

/-- The variables of a quantifier are written as a typed list that declares them under their placeholders. -/
theorem spells_declared {slots : List Nat} {bindings : List Binding}
    (hTypes : ∀ binding ∈ bindings, IsSymbol binding.type) :
    Spells (String.intercalate " "
        ((quantifierNode (Term.lowered []) bindings slots).parameters.map Parameter.declaration))
      (typedWords (numberedBindings slots bindings)) := by
  have hText : (quantifierNode (Term.lowered []) bindings slots).parameters.map Parameter.declaration =
      (numberedBindings slots bindings).map fun binding => binding.name ++ " - " ++ binding.type := by
    rw [quantifierNode, numberedBindings, List.map_map, List.map_map]
    refine List.map_congr_left fun pair hMem => if_neg ?_
    have hType := hTypes pair.2 (List.of_mem_zip hMem).2
    rw [String.isEmpty_iff, ← String.toList_eq_nil_iff]
    exact hType.nonempty
  rw [hText]
  refine spells_typedListText fun binding hMem => ?_
  obtain ⟨pair, hPair, rfl⟩ := List.mem_map.mp hMem
  exact ⟨isSymbol_placeholder pair.1, hTypes pair.2 (List.of_mem_zip hPair).2⟩

theorem isNoTypeName_of_isVariable {text : String} (hVariable : isVariable text = true) :
    Scope.isNoTypeName text = false := by
  refine Reading.isNoTypeName_iff.mpr ⟨?_, ?_, ?_⟩ <;> rintro rfl <;> exact absurd hVariable (by decide)

theorem declares_numberedBindings (slots : List Nat) {bindings : List Binding}
    (hTypes : ∀ binding ∈ bindings, Scope.isNoTypeName binding.type = false) :
    Declares (typedWords (numberedBindings slots bindings)) (numberedBindings slots bindings) ∧
      ∀ binding ∈ numberedBindings slots bindings, isVariable binding.name = true := by
  refine ⟨declares_typedWords fun binding hMem => ?_, fun binding hMem => ?_⟩
  · obtain ⟨pair, hPair, rfl⟩ := List.mem_map.mp hMem
    exact ⟨isNoTypeName_of_isVariable (isVariable_placeholder pair.1), hTypes pair.2 (List.of_mem_zip hPair).2⟩
  · obtain ⟨pair, -, rfl⟩ := List.mem_map.mp hMem
    exact isVariable_placeholder pair.1

/-- A quantifier is written around the text of its body. -/
theorem spells_quantifierText {declared parts : String} {declaredWords words : List String}
    (hDeclared : Spells declared declaredWords) (hParts : Spells parts words) :
    Spells ("(exists (" ++ declared ++ ") " ++ parts ++ ")")
      ("(" :: "exists" :: "(" :: (declaredWords ++ ")" :: (words ++ [")"]))) := by
  intro rest _
  have hKeyword : IsSymbol "exists" := isSymbol_of_mem_fixedWords (by decide)
  have hSplit : ("(exists (" ++ declared ++ ") " ++ parts ++ ")").toList ++ rest =
      '(' :: ("exists".toList ++ ' ' :: '(' :: (declared.toList ++
        ')' :: ' ' :: (parts.toList ++ ')' :: rest))) := by
    simp
  rw [hSplit, texts_opening, texts_symbol hKeyword (Token.atBoundary_space _), texts_space, texts_opening,
    hDeclared _ (Token.atBoundary_closing _), texts_closing, texts_space,
    hParts _ (Token.atBoundary_closing rest), texts_closing]
  simp

/-- The line of a quantifier with a body. -/
theorem spells_quantifier_line {slots : List Nat} {bindings : List Binding} {body : Condition} {words : List String}
    (hTypes : ∀ binding ∈ bindings, IsSymbol binding.type) (hBody : Spells (bodyLine (some body)) words)
    (hWords : words ≠ []) :
    Spells (bodyLine (some (.quantified bindings slots (some body))))
      ("(" :: "exists" :: "(" :: (typedWords (numberedBindings slots bindings) ++ ")" :: (words ++ [")"]))) := by
  have hLine : bodyLine (some (.quantified bindings slots (some body))) =
      "(exists (" ++ String.intercalate " " ((quantifierNode (Term.lowered []) bindings slots).parameters.map
        Parameter.declaration) ++ ") " ++ bodyLine (some body) ++ ")" :=
    if_neg (ne_true_of_eq_false (isEmpty_of_spells hBody hWords))
  rw [hLine]
  exact spells_quantifierText (spells_declared hTypes) hBody

mutual

/-- The line of a condition has words that denote the condition, with placeholders for quantified variables, in a
scope whose variables are called by placeholders. -/
theorem spells_bodyLine {scope other : Scope} {words : List String} {condition : Option Condition} :
    Denotes scope words condition → other.Numbered → other.size = scope.size → (∀ word ∈ words, IsLexeme word) →
      (∀ x ∈ bodyNumbers condition, x.isFinite = true) → IsBody condition →
        ∃ printed, Spells (bodyLine condition) printed ∧ Denotes other printed (bodyNumbered condition)
  | .empty, _, _, _, _, hBody => hBody.elim
  | .conjunction _ hParts, hNumbered, hSize, hLexemes, hFinite, hBody => by
      obtain ⟨printed, hSpells, hPrinted⟩ := spells_partLines hParts hNumbered hSize
        (fun word hMem => hLexemes word (by simp [hMem])) hFinite hBody
      have hKeyword : IsSymbol "and" := isSymbol_of_mem_fixedWords (by decide)
      exact ⟨_, spells_form hKeyword (Token.spells_intercalate hSpells),
        .conjunction (.refl _) hPrinted⟩
  | .disjunction _ hParts, hNumbered, hSize, hLexemes, hFinite, hBody => by
      obtain ⟨printed, hSpells, hPrinted⟩ := spells_partLines hParts hNumbered hSize
        (fun word hMem => hLexemes word (by simp [hMem])) hFinite hBody
      have hKeyword : IsSymbol "or" := isSymbol_of_mem_fixedWords (by decide)
      exact ⟨_, spells_form hKeyword (Token.spells_intercalate hSpells),
        .disjunction (.refl _) hPrinted⟩
  | @Denotes.negation _ _ _ part _ hPart, hNumbered, hSize, hLexemes, hFinite, hBody => by
      obtain ⟨printed, hSpells, hPrinted⟩ := spells_bodyLine hPart hNumbered hSize
        (fun word hMem => hLexemes word (by simp [hMem])) hFinite hBody
      have hKeyword : IsSymbol "not" := isSymbol_of_mem_fixedWords (by decide)
      exact ⟨_, spells_form hKeyword hSpells,
        .negation (.refl _) hPrinted⟩
  | @Denotes.atom _ name words args hName hWord hArgs, hNumbered, hSize, hLexemes, _, _ => by
      have hSymbol := isSymbol_of_isWord (hLexemes name (by simp)) hWord
      obtain ⟨printed, hSpells, hPrinted⟩ := spells_head hNumbered hSize hSymbol hArgs
        (fun word hMem => hLexemes word (by simp [hMem])) .predicate
      exact ⟨_, hSpells, .atom hName hWord hPrinted⟩
  | .comparison op _ hLeft hRight, hNumbered, hSize, hLexemes, hFinite, _ => by
      obtain ⟨leftPrinted, hLeftSpells, hLeftDenotes⟩ := spells_line_expression hNumbered hSize hLeft
        (fun word hMem => hLexemes word (by simp [hMem])) fun x hMem => hFinite x (List.mem_append_left _ hMem)
      obtain ⟨rightPrinted, hRightSpells, hRightDenotes⟩ := spells_line_expression hNumbered hSize hRight
        (fun word hMem => hLexemes word (by simp [hMem])) fun x hMem => hFinite x (List.mem_append_right _ hMem)
      exact ⟨_, spells_operands (isSymbol_comparison op) hLeftSpells hRightSpells,
        .comparison op (.refl _) hLeftDenotes hRightDenotes⟩
  | .update op _ hTarget hAmount, hNumbered, hSize, hLexemes, hFinite, _ => by
      obtain ⟨targetPrinted, hTargetSpells, hTargetDenotes⟩ := spells_line_expression hNumbered hSize hTarget
        (fun word hMem => hLexemes word (by simp [hMem])) fun x hMem => absurd hMem List.not_mem_nil
      obtain ⟨amountPrinted, hAmountSpells, hAmountDenotes⟩ := spells_line_expression hNumbered hSize hAmount
        (fun word hMem => hLexemes word (by simp [hMem])) hFinite
      exact ⟨_, spells_operands (isSymbol_update op) hTargetSpells hAmountSpells,
        .update op (.refl _) hTargetDenotes hAmountDenotes⟩
  | @Denotes.quantified _ _ _ _ _ none _ _ _ _, _, _, _, _, hBody => hBody.elim
  | @Denotes.quantified scope _ _ _ bindings (some inner) _ hBindings hVariables hInner, hNumbered, hSize,
      hLexemes, hFinite, hBody => by
      have hCount : (numberedBindings (List.range' scope.size bindings.length) bindings).length =
          bindings.length := length_numberedBindings List.length_range'
      have hInnerNumbered := hNumbered.extend bindings
      rw [hSize] at hInnerNumbered
      obtain ⟨printed, hSpells, hPrinted⟩ := spells_bodyLine hInner hInnerNumbered
        (by rw [Scope.size_extend, Scope.size_extend, hCount, hSize])
        (fun word hMem => hLexemes word (by simp [hMem])) hFinite hBody
      -- A type that was left out is not a word of the condition, but is written all the same.
      have hTypes (binding : Binding) (hMem : binding ∈ bindings) : IsSymbol binding.type := by
        obtain ⟨-, hTypeMem, -, hGood⟩ := mem_of_declares hBindings hMem
        rcases hTypeMem with hWord | hDefault
        · exact isSymbol_of_isNoTypeName (hLexemes _ (by simp [hWord])) hGood
        · rw [hDefault]
          exact isSymbol_defaultType
      obtain ⟨hDeclares, hAllVariables⟩ := declares_numberedBindings (List.range' scope.size bindings.length)
        fun binding hMem => (mem_of_declares hBindings hMem).2.2.2
      have hSome : printed ≠ [] := by
        rintro rfl
        exact Reading.not_denotes_nil hPrinted
      have hDenotes := Denotes.quantified (.refl "exists") hDeclares hAllVariables hPrinted
      rw [hCount, hSize] at hDenotes
      exact ⟨_, spells_quantifier_line hTypes hSpells hSome, hDenotes⟩

/-- The lines of a list of conditions have words that denote them. -/
theorem spells_partLines {scope other : Scope} {words : List String} {parts : List Condition} :
    DenoteParts scope words parts → other.Numbered → other.size = scope.size → (∀ word ∈ words, IsLexeme word) →
      (∀ x ∈ partsNumbers parts, x.isFinite = true) → PartsHaveBodies parts →
        ∃ printed, List.Forall₂ Spells (lines (partOutlines (Term.lowered []) parts)) printed ∧
          DenoteParts other printed.flatten (partsNumbered parts)
  | .nil, _, _, _, _, _ => ⟨[], .nil, .nil⟩
  | @DenoteParts.cons _ _ _ none _ _ hParts, hNumbered, hSize, hLexemes, hFinite, hBodies =>
      spells_partLines hParts hNumbered hSize (fun word hMem => hLexemes word (List.mem_append_right _ hMem)) hFinite
        hBodies
  | @DenoteParts.cons _ _ _ (some part) _ hPart hParts, hNumbered, hSize, hLexemes, hFinite, hBodies => by
      obtain ⟨printed, hSpells, hPrinted⟩ := spells_bodyLine hPart hNumbered hSize
        (fun word hMem => hLexemes word (List.mem_append_left _ hMem))
        (fun x hMem => hFinite x (List.mem_append_left _ hMem)) hBodies.1
      obtain ⟨more, hMoreSpells, hMorePrinted⟩ := spells_partLines hParts hNumbered hSize
        (fun word hMem => hLexemes word (List.mem_append_right _ hMem))
        (fun x hMem => hFinite x (List.mem_append_right _ hMem)) hBodies.2
      exact ⟨printed :: more, .cons hSpells hMoreSpells, .cons hPrinted hMorePrinted⟩

end

/-- Every condition that is read from a text, with finite numbers and a body in every quantifier, is read again
from the line of its tree, in a scope whose variables are called by the placeholders of their slots.  Only the
names of the quantified variables differ. -/
theorem ofText_rootText {text : String} {scope : Scope} {condition : Condition}
    (hText : ofText text scope = .ok (some condition)) (hBodies : condition.HasBodies)
    (hFinite : ∀ x ∈ condition.numbers, x.isFinite = true) {other : Scope} (hNumbered : other.Numbered)
    (hSize : other.size = scope.size) :
    ofText (Tree.ofCondition (some condition) []).rootText other = .ok (some condition.numbered) := by
  obtain ⟨printed, hSpells, hDenotes⟩ := spells_bodyLine (ofText_eq_ok_iff.mp hText) hNumbered hSize
    (fun word hMem => Token.isLexeme_of_mem_ofText hMem) hFinite hBodies
  rw [Tree.rootText_ofCondition, ofText_eq_ok_iff]
  rw [bodyLine] at hSpells
  rw [hSpells.map_text_ofText]
  exact hDenotes

/-- Here the inner variable hides the outer one, its type was left out, and a number loses a digit. -/
theorem ofText_rootText_hiding :
    ofText "(exists (?x) (>= ?x 1.50))" ⟨[⟨"?x", "room"⟩]⟩ =
        .ok (some (.quantified [⟨"?x", "object"⟩] [1] (some (.comparison .atLeast (.variable 1) (.number 1.5))))) ∧
      (Scope.mk [⟨"?0", "room"⟩]).Numbered ∧
      ofText (Tree.ofCondition (some (.quantified [⟨"?x", "object"⟩] [1]
          (some (.comparison .atLeast (.variable 1) (.number 1.5))))) []).rootText ⟨[⟨"?0", "room"⟩]⟩ =
        .ok (some (.quantified [⟨"?1", "object"⟩] [1] (some (.comparison .atLeast (.variable 1) (.number 1.5))))) := by
  have hBody : Denotes (Scope.extend ⟨[⟨"?x", "room"⟩]⟩ [⟨"?x", "object"⟩]) ["(", ">=", "?x", "1.50", ")"]
      (some (.comparison .atLeast (.variable 1) (.number 1.5))) :=
    .comparison .atLeast (by decide +kernel) (.slot (by decide) (by decide))
      (.number ⟨by decide, by decide⟩ (by decide +kernel))
  have hDeclares : Declares ["?x"] [⟨"?x", "object"⟩] := .untyped (by decide)
  have hWords : (Token.ofText "(exists (?x) (>= ?x 1.50))").map Token.text =
      ["(", "exists", "(", "?x", ")", "(", ">=", "?x", "1.50", ")", ")"] := by
    decide +kernel
  have hText : ofText "(exists (?x) (>= ?x 1.50))" ⟨[⟨"?x", "room"⟩]⟩ =
      .ok (some (.quantified [⟨"?x", "object"⟩] [1]
        (some (.comparison .atLeast (.variable 1) (.number 1.5))))) := by
    rw [ofText_eq_ok_iff, hWords]
    exact .quantified (by decide +kernel) hDeclares (by decide) hBody
  have hNumbered : (Scope.mk [⟨"?0", "room"⟩]).Numbered := by decide +kernel
  have hPlaceholder : placeholder 1 = "?1" := by decide +kernel
  refine ⟨hText, hNumbered, ?_⟩
  have hRead := ofText_rootText hText trivial (fun x hMem => ?_) hNumbered rfl
  · rw [← hPlaceholder]
    exact hRead
  · obtain rfl := List.mem_singleton.mp hMem
    decide +kernel

end Condition
end PlanLogic
