import PlanLogic.Condition.Printer
import PlanLogic.Proofs.Decimal.RoundTrip
import PlanLogic.Proofs.Printing.Lexemes
import PlanLogic.Proofs.Reading.Acceptance

/-!
# Printed conditions are read back

The printer does not reproduce the text that a condition was read from: it writes one construct a line, gives
every variable of a quantifier its type and leaves empty parts out.  But the tokens that it writes are again a
word for the same condition in the same scope, so reading them gives the condition back.
-/

namespace PlanLogic

/-- The numbers in an expression. -/
def Expression.numbers : Expression → List Float
  | .number value => [value]
  | .arithmetic _ left right => left.numbers ++ right.numbers
  | _ => []

namespace Condition

mutual

/-- The numbers in a condition. -/
def numbers : Condition → List Float
  | .conjunction parts => partsNumbers parts
  | .disjunction parts => partsNumbers parts
  | .negation part => numbers part
  | .atom _ => []
  | .comparison _ left right => left.numbers ++ right.numbers
  | .update _ _ amount => amount.numbers
  | .quantified _ _ body => bodyNumbers body

/-- The numbers in a list of conditions. -/
def partsNumbers : List Condition → List Float
  | [] => []
  | part :: parts => numbers part ++ partsNumbers parts

/-- The numbers in a possibly empty condition. -/
def bodyNumbers : Option Condition → List Float
  | none => []
  | some condition => numbers condition

end

end Condition

open Token

/-! ## Names and numbers -/

theorem isSymbol_of_isWord {text : String} (hLexeme : IsLexeme text) (hWord : IsWord text) :
    IsSymbol text := by
  obtain ⟨hOpen, hClose, -⟩ := Reading.isWord_iff.mp hWord
  cases hLexeme with
  | opening hText => exact absurd hText hOpen
  | closing hText => exact absurd hText hClose
  | symbol hSymbol => exact hSymbol

theorem isSymbol_of_isVariable {text : String} (hLexeme : IsLexeme text)
    (hVariable : isVariable text = true) :
    IsSymbol text := by
  cases hLexeme with
  | opening hText => simp [hText, Reading.not_isVariable_open] at hVariable
  | closing hText => simp [hText, Reading.not_isVariable_close] at hVariable
  | symbol hSymbol => exact hSymbol

theorem isSymbolChar_of_mem_numberChars : ∀ c ∈ Decimal.numberChars, isSymbolChar c = true := by
  rw [← List.all_eq_true]
  decide +kernel

/-- The text of a finite number is a symbol and no variable. -/
theorem plainText_word {x : Float} (hFinite : x.isFinite = true) :
    IsSymbol (Decimal.plainText x) ∧ IsWord (Decimal.plainText x) := by
  obtain ⟨hSome, hChars⟩ := Decimal.text_chars Decimal.Layout.plain hFinite
  have hHead {c : Char} (hOther : c ∉ Decimal.numberChars) :
      (Decimal.plainText x).toList.head? ≠ some c := fun hFirst =>
    hOther (hChars c (List.mem_of_head? hFirst))
  have hSymbol : IsSymbol (Decimal.plainText x) :=
    ⟨hSome, fun c hMem => isSymbolChar_of_mem_numberChars c (hChars c hMem), hHead (by decide)⟩
  refine ⟨hSymbol, Reading.isWord_iff.mpr ⟨?_, ?_, ?_⟩⟩
  · intro hText
    exact hHead (by decide +kernel : '(' ∉ Decimal.numberChars) (by rw [hText]; rfl)
  · intro hText
    exact hHead (by decide +kernel : ')' ∉ Decimal.numberChars) (by rw [hText]; rfl)
  · rw [isVariable, beq_eq_false_iff_ne]
    exact hHead (by decide)

/-- The words that a printed condition has besides its own: keywords, signs and the type of what has none. -/
def fixedWords : List String :=
  Condition.keywords ++ ["+", "-", "*", "/", Binding.defaultType]

theorem isSymbol_of_mem_fixedWords {text : String} (hMem : text ∈ fixedWords) : IsSymbol text := by
  have hAll : ∀ text ∈ fixedWords, text.toList ≠ [] ∧ text.toList.all isSymbolChar = true ∧
      text.toList.head? ≠ some ';' := by
    decide +kernel
  obtain ⟨hSome, hChars, hComment⟩ := hAll text hMem
  exact isSymbol_of_all hSome hChars hComment

theorem isSymbol_arithmetic (op : Arithmetic) : IsSymbol op.symbol :=
  isSymbol_of_mem_fixedWords (by cases op <;> decide)

theorem isSymbol_comparison (op : Comparison) : IsSymbol op.symbol :=
  isSymbol_of_mem_fixedWords (by cases op <;> decide)

theorem isSymbol_update (op : Update) : IsSymbol op.symbol :=
  isSymbol_of_mem_fixedWords (by cases op <;> decide)

/-! ## Arguments and expressions -/

/-- The name of a slot that was found is the name that was looked for. -/
theorem text_slot {scope : Scope} {name : String} {slot : Nat} (hSlot : scope.slotOf? name = some slot) :
    (Term.slot slot).text scope = name := by
  rw [Term.text, Scope.nameAt?_of_slotOf? hSlot]
  rfl

theorem text_argument {scope : Scope} {word : String} {arg : Term} (hArg : ArgumentOf scope word arg) :
    arg.text scope = word := by
  cases hArg with
  | slot hVariable hSlot => exact text_slot hSlot
  | object hWord => rfl

theorem isSymbol_argument {scope : Scope} {word : String} {arg : Term} (hLexeme : IsLexeme word)
    (hArg : ArgumentOf scope word arg) : IsSymbol word := by
  cases hArg with
  | slot hVariable hSlot => exact isSymbol_of_isVariable hLexeme hVariable
  | object hWord => exact isSymbol_of_isWord hLexeme hWord

theorem map_text_arguments {scope : Scope} {words : List String} {args : List Term}
    (hArgs : ArgumentsOf scope words args) : args.map (Term.text scope) = words := by
  induction hArgs with
  | nil => rfl
  | cons hArg _ ih => rw [List.map_cons, text_argument hArg, ih]

theorem isSymbol_of_mem_arguments {scope : Scope} {words : List String} {args : List Term}
    (hArgs : ArgumentsOf scope words args) (hLexemes : ∀ word ∈ words, IsLexeme word) :
    ∀ word ∈ words, IsSymbol word := by
  induction hArgs with
  | nil => exact fun _ hMem => absurd hMem List.not_mem_nil
  | cons hArg _ ih =>
      exact List.forall_mem_cons.mpr ⟨isSymbol_argument (hLexemes _ List.mem_cons_self) hArg,
        ih fun other hMem => hLexemes other (List.mem_cons_of_mem _ hMem)⟩

/-- Arguments are written as they were read, with a space before each. -/
theorem spells_arguments {scope : Scope} {words : List String} {args : List Term}
    (hArgs : ArgumentsOf scope words args) (hLexemes : ∀ word ∈ words, IsLexeme word) {rest : List Char}
    (hRest : AtBoundary rest) :
    AtBoundary ((String.join (args.map fun arg => " " ++ arg.text scope)).toList ++ rest) ∧
      texts ((String.join (args.map fun arg => " " ++ arg.text scope)).toList ++ rest) =
        words ++ texts rest := by
  have hSpaced := spells_spaced (isSymbol_of_mem_arguments hArgs hLexemes) hRest
  rwa [← map_text_arguments hArgs, List.map_map, map_text_arguments hArgs] at hSpaced

/-- An atom is written as it was read. -/
theorem spells_atom {scope : Scope} {name : String} {words : List String} {args : List Term}
    (hName : IsSymbol name) (hArgs : ArgumentsOf scope words args)
    (hLexemes : ∀ word ∈ words, IsLexeme word) :
    Spells (Atom.text scope ⟨name, args⟩) ("(" :: name :: (words ++ [")"])) := by
  intro rest hRest
  obtain ⟨hBoundary, hTexts⟩ := spells_arguments hArgs hLexemes (atBoundary_space (')' :: rest))
  have hSplit : (Atom.text scope ⟨name, args⟩).toList ++ rest =
      '(' :: ' ' :: (name.toList ++
        ((String.join (args.map fun arg => " " ++ arg.text scope)).toList ++ ' ' :: ')' :: rest)) := by
    simp [Atom.text]
  rw [hSplit, texts_opening, texts_space, texts_symbol hName hBoundary, hTexts, texts_space, texts_closing]
  simp

/-- Two expressions between an operator and a closing parenthesis. -/
theorem spells_operation {symbol left right : String} {leftWords rightWords : List String}
    (hSymbol : IsSymbol symbol) (hLeft : Spells left leftWords) (hRight : Spells right rightWords) :
    Spells ("( " ++ symbol ++ " " ++ left ++ " " ++ right ++ " )")
      ("(" :: symbol :: (leftWords ++ rightWords ++ [")"])) := by
  intro rest hRest
  have hSplit : ("( " ++ symbol ++ " " ++ left ++ " " ++ right ++ " )").toList ++ rest =
      '(' :: ' ' :: (symbol.toList ++
        ' ' :: (left.toList ++ ' ' :: (right.toList ++ ' ' :: ')' :: rest))) := by
    simp
  rw [hSplit, texts_opening, texts_space, texts_symbol hSymbol (atBoundary_space _), texts_space,
    hLeft _ (atBoundary_space _), texts_space, hRight _ (atBoundary_space _), texts_space, texts_closing]
  simp

/-- An expression is written with words that denote it again; only the texts of its numbers can differ from
those that were read. -/
theorem spells_expression {scope : Scope} {words : List String} {expression : Expression}
    (hDenotes : DenotesExpression scope words expression) (hLexemes : ∀ word ∈ words, IsLexeme word)
    (hFinite : ∀ x ∈ expression.numbers, x.isFinite = true) :
    ∃ printed, Spells (expression.text scope) printed ∧ DenotesExpression scope printed expression := by
  induction hDenotes with
  | @number text value hWord hValue =>
      have hValueFinite := hFinite value (List.mem_singleton.mpr rfl)
      obtain ⟨hSymbol, hPrinted⟩ := plainText_word hValueFinite
      refine ⟨[Decimal.plainText value], fun rest hRest => texts_symbol hSymbol hRest, .number hPrinted ?_⟩
      exact Decimal.literal?_text Decimal.Layout.plain hValueFinite
  | @slot text slot hVariable hSlot =>
      have hSymbol := isSymbol_of_isVariable (hLexemes text (List.mem_singleton.mpr rfl)) hVariable
      refine ⟨[text], fun rest hRest => ?_, .slot hVariable hSlot⟩
      rw [Expression.text, text_slot hSlot]
      exact texts_symbol hSymbol hRest
  | @constant text hWord hValue =>
      have hSymbol := isSymbol_of_isWord (hLexemes text (List.mem_singleton.mpr rfl)) hWord
      exact ⟨[text], fun rest hRest => texts_symbol hSymbol hRest, .constant hWord hValue⟩
  | @function name words args hName hOperator hArgs =>
      have hSymbol := isSymbol_of_isWord (hLexemes name (by simp)) hName
      exact ⟨_, spells_atom hSymbol hArgs fun word hMem => hLexemes word (by simp [hMem]),
        .function hName hOperator hArgs⟩
  | @arithmetic op leftWords rightWords left right hLeft hRight ihLeft ihRight =>
      obtain ⟨leftPrinted, hLeftSpells, hLeftDenotes⟩ :=
        ihLeft (fun word hMem => hLexemes word (by simp [hMem]))
          fun x hMem => hFinite x (List.mem_append_left _ hMem)
      obtain ⟨rightPrinted, hRightSpells, hRightDenotes⟩ :=
        ihRight (fun word hMem => hLexemes word (by simp [hMem]))
          fun x hMem => hFinite x (List.mem_append_right _ hMem)
      exact ⟨_, spells_operation (isSymbol_arithmetic op) hLeftSpells hRightSpells,
        .arithmetic op hLeftDenotes hRightDenotes⟩

/-! ## Typed lists -/

/-- The words that a typed list is written with: every name with its own type. -/
def typedWords (bindings : List Binding) : List String :=
  bindings.flatMap fun binding => [binding.name, "-", binding.type]

theorem isSymbol_of_isNoTypeName {text : String} (hLexeme : IsLexeme text)
    (hName : Scope.isNoTypeName text = false) : IsSymbol text := by
  obtain ⟨hOpen, hClose, -⟩ := Reading.isNoTypeName_iff.mp hName
  cases hLexeme with
  | opening hText => exact absurd hText hOpen
  | closing hText => exact absurd hText hClose
  | symbol hSymbol => exact hSymbol

/-- Names and types of a typed list are words of it, unless a type is the default one. -/
theorem mem_of_declares {words : List String} {bindings : List Binding} (hDeclares : Declares words bindings)
    {binding : Binding} (hMem : binding ∈ bindings) :
    binding.name ∈ words ∧ (binding.type ∈ words ∨ binding.type = Binding.defaultType) ∧
      Scope.isNoTypeName binding.name = false ∧ Scope.isNoTypeName binding.type = false := by
  induction hDeclares with
  | untyped hNames =>
      obtain ⟨name, hName, rfl⟩ := List.mem_map.mp hMem
      exact ⟨hName, .inr rfl, hNames name hName, (rfl : Scope.isNoTypeName Binding.defaultType = false)⟩
  | typed hSome hNames hType hRest ih =>
      rcases List.mem_append.mp hMem with hHere | hLater
      · obtain ⟨name, hName, rfl⟩ := List.mem_map.mp hHere
        exact ⟨by simp [hName], .inl (by simp), hNames name hName, hType⟩
      · obtain ⟨hName, hTypeMem, hGood⟩ := ih hLater
        exact ⟨by simp [hName], hTypeMem.imp_left fun hWord => by simp [hWord], hGood⟩

theorem isSymbol_defaultType : IsSymbol Binding.defaultType :=
  isSymbol_of_mem_fixedWords (by decide)

theorem isSymbol_dash : IsSymbol "-" :=
  isSymbol_arithmetic .subtract

theorem declares_typedWords {bindings : List Binding}
    (hGood : ∀ binding ∈ bindings, Scope.isNoTypeName binding.name = false ∧
      Scope.isNoTypeName binding.type = false) : Declares (typedWords bindings) bindings := by
  induction bindings with
  | nil => exact .untyped fun _ hMem => absurd hMem List.not_mem_nil
  | cons binding bindings ih =>
      obtain ⟨hName, hType⟩ := hGood binding List.mem_cons_self
      have hRest := ih fun other hMem => hGood other (List.mem_cons_of_mem binding hMem)
      have hNames : ∀ name ∈ [binding.name], Scope.isNoTypeName name = false := by simp [hName]
      exact .typed (List.cons_ne_nil _ _) hNames hType hRest

theorem spells_binding {name type : String} (hName : IsSymbol name) (hType : IsSymbol type) :
    Spells (name ++ " - " ++ type) [name, "-", type] := by
  intro rest hRest
  have hSplit : (name ++ " - " ++ type).toList ++ rest =
      name.toList ++ ' ' :: ("-".toList ++ ' ' :: (type.toList ++ rest)) := by
    simp
  rw [hSplit, texts_symbol hName (atBoundary_space _), texts_space,
    texts_symbol isSymbol_dash (atBoundary_space _), texts_space, texts_symbol hType hRest]
  rfl

theorem spells_typedListText {bindings : List Binding}
    (hSymbols : ∀ binding ∈ bindings, IsSymbol binding.name ∧ IsSymbol binding.type) :
    Spells (Condition.typedListText bindings) (typedWords bindings) := by
  rw [Condition.typedListText, typedWords, List.flatMap]
  apply spells_intercalate
  rw [List.forall₂_map_left_iff, List.forall₂_map_right_iff, List.forall₂_same]
  exact fun binding hMem => spells_binding (hSymbols binding hMem).1 (hSymbols binding hMem).2

/-! ## Conditions -/

namespace Condition

@[simp] theorem toList_indentation (depth : Nat) :
    (indentation depth).toList = List.replicate depth '\t' :=
  String.toList_ofList

theorem spells_emptyText (depth : Nat) : Spells (emptyText depth) ["(", ")"] := by
  intro rest _
  have hSplit : (emptyText depth).toList ++ rest = List.replicate depth '\t' ++ '(' :: ')' :: rest := by
    simp [emptyText]
  rw [hSplit, texts_tabs, texts_opening, texts_closing]
  rfl

/-- A text on a line of its own. -/
theorem spells_indented {text : String} {words : List String} (depth : Nat) (hText : Spells text words) :
    Spells (indentation depth ++ text) words := by
  intro rest hRest
  have hSplit : (indentation depth ++ text).toList ++ rest =
      List.replicate depth '\t' ++ (text.toList ++ rest) := by
    simp
  rw [hSplit, texts_tabs, hText rest hRest]

/-- Lines between the line of a keyword and the line of a closing parenthesis. -/
theorem spells_block {heading inner keyword : String} {words : List String} (depth : Nat)
    (hKeyword : IsSymbol keyword) (hHeading : heading.toList = '(' :: ' ' :: (keyword.toList ++ ['\n']))
    (hInner : ∀ rest, texts (inner.toList ++ rest) = words ++ texts rest) :
    Spells (indentation depth ++ heading ++ inner ++ indentation depth ++ ")")
      ("(" :: keyword :: (words ++ [")"])) := by
  intro rest _
  have hSplit : (indentation depth ++ heading ++ inner ++ indentation depth ++ ")").toList ++ rest =
      List.replicate depth '\t' ++ '(' :: ' ' :: (keyword.toList ++
        '\n' :: (inner.toList ++ (List.replicate depth '\t' ++ ')' :: rest))) := by
    simp [hHeading]
  rw [hSplit, texts_tabs, texts_opening, texts_space, texts_symbol hKeyword (atBoundary_lineFeed _),
    texts_lineFeed, hInner, texts_tabs, texts_closing]
  simp

/-- A text followed by a line feed needs nothing after it. -/
theorem texts_line {text : String} {words : List String} (hText : Spells text words) (rest : List Char) :
    texts ((text ++ "\n").toList ++ rest) = words ++ texts rest := by
  have hSplit : (text ++ "\n").toList ++ rest = text.toList ++ '\n' :: rest := by
    simp
  rw [hSplit, hText _ (atBoundary_lineFeed rest), texts_lineFeed]

/-- An operation on a line of its own. -/
theorem spells_indentedOperation {symbol left right : String} {leftWords rightWords : List String}
    (depth : Nat) (hSymbol : IsSymbol symbol) (hLeft : Spells left leftWords)
    (hRight : Spells right rightWords) :
    Spells (indentation depth ++ "( " ++ symbol ++ " " ++ left ++ " " ++ right ++ " )")
      ("(" :: symbol :: (leftWords ++ rightWords ++ [")"])) := by
  have hSpells := spells_indented depth (spells_operation hSymbol hLeft hRight)
  simpa only [String.append_assoc] using hSpells

/-- A quantifier is written around its body. -/
theorem spells_quantifier {scope : Scope} {bindings : List Binding} {body : Option Condition}
    {printed : List String} (depth : Nat)
    (hSymbols : ∀ binding ∈ bindings, IsSymbol binding.name ∧ IsSymbol binding.type)
    (hBody : Spells (bodyText (scope.extend bindings) (depth + 1) body) printed) (slots : List Nat) :
    Spells (text scope depth (.quantified bindings slots body))
      ("(" :: "exists" :: "(" :: (typedWords bindings ++ ")" :: (printed ++ [")"]))) := by
  intro rest _
  have hSplit : (text scope depth (.quantified bindings slots body)).toList ++ rest =
      List.replicate depth '\t' ++ '(' :: ' ' :: ("exists".toList ++ ' ' :: '(' :: ' ' ::
        ((typedListText bindings).toList ++ ' ' :: ')' :: '\n' ::
          ((bodyText (scope.extend bindings) (depth + 1) body ++ "\n").toList ++
            (List.replicate depth '\t' ++ ')' :: rest)))) := by
    rw [text]
    simp
  rw [hSplit, texts_tabs, texts_opening, texts_space, texts_symbol (isSymbol_of_mem_fixedWords (by decide)) (atBoundary_space _),
    texts_space, texts_opening, texts_space, spells_typedListText hSymbols _ (atBoundary_space _),
    texts_space, texts_closing, texts_lineFeed, texts_line hBody, texts_tabs, texts_closing]
  simp

mutual

/-- A condition is written with words that denote it again. -/
theorem spells_bodyText {scope : Scope} {words : List String} {condition : Option Condition} :
    Denotes scope words condition → (∀ word ∈ words, IsLexeme word) →
      (∀ x ∈ bodyNumbers condition, x.isFinite = true) → ∀ depth,
        ∃ printed, Spells (bodyText scope depth condition) printed ∧ Denotes scope printed condition
  | .empty, _, _, depth => ⟨_, spells_emptyText depth, .empty⟩
  | .conjunction hName hParts, hLexemes, hFinite, depth => by
      obtain ⟨printed, hTexts, hPrinted⟩ := texts_partsText hParts
        (fun word hMem => hLexemes word (by simp [hMem])) hFinite (depth + 1)
      rw [bodyText, text]
      have hKeyword : IsSymbol "and" := isSymbol_of_mem_fixedWords (by decide)
      exact ⟨_, spells_block depth hKeyword rfl hTexts,
        .conjunction (.refl _) hPrinted⟩
  | .disjunction hName hParts, hLexemes, hFinite, depth => by
      obtain ⟨printed, hTexts, hPrinted⟩ := texts_partsText hParts
        (fun word hMem => hLexemes word (by simp [hMem])) hFinite (depth + 1)
      rw [bodyText, text]
      have hKeyword : IsSymbol "or" := isSymbol_of_mem_fixedWords (by decide)
      exact ⟨_, spells_block depth hKeyword rfl hTexts,
        .disjunction (.refl _) hPrinted⟩
  | .negation hName hPart, hLexemes, hFinite, depth => by
      obtain ⟨printed, hSpells, hPrinted⟩ := spells_bodyText hPart
        (fun word hMem => hLexemes word (by simp [hMem])) hFinite (depth + 1)
      have hHeading : "( not\n".toList = '(' :: ' ' :: ("not".toList ++ ['\n']) := rfl
      have hBlock := spells_block depth (isSymbol_of_mem_fixedWords (by decide)) hHeading (texts_line hSpells)
      rw [bodyText, text]
      rw [bodyText, ← String.append_assoc] at hBlock
      exact ⟨_, hBlock, .negation (.refl _) hPrinted⟩
  | @Denotes.atom _ name words args hName hWord hArgs, hLexemes, _, depth => by
      have hSymbol := isSymbol_of_isWord (hLexemes name (by simp)) hWord
      rw [bodyText, text]
      exact ⟨_,
        spells_indented depth (spells_atom hSymbol hArgs fun word hMem => hLexemes word (by simp [hMem])),
        .atom hName hWord hArgs⟩
  | .comparison op hName hLeft hRight, hLexemes, hFinite, depth => by
      obtain ⟨leftPrinted, hLeftSpells, hLeftDenotes⟩ := spells_expression hLeft
        (fun word hMem => hLexemes word (by simp [hMem])) fun x hMem => hFinite x (List.mem_append_left _ hMem)
      obtain ⟨rightPrinted, hRightSpells, hRightDenotes⟩ := spells_expression hRight
        (fun word hMem => hLexemes word (by simp [hMem])) fun x hMem => hFinite x (List.mem_append_right _ hMem)
      rw [bodyText, text]
      exact ⟨_, spells_indentedOperation depth (isSymbol_comparison op) hLeftSpells hRightSpells,
        .comparison op (.refl _) hLeftDenotes hRightDenotes⟩
  | .update op hName hTarget hAmount, hLexemes, hFinite, depth => by
      obtain ⟨targetPrinted, hTargetSpells, hTargetDenotes⟩ := spells_expression hTarget
        (fun word hMem => hLexemes word (by simp [hMem])) fun x hMem => absurd hMem List.not_mem_nil
      obtain ⟨amountPrinted, hAmountSpells, hAmountDenotes⟩ := spells_expression hAmount
        (fun word hMem => hLexemes word (by simp [hMem])) hFinite
      rw [bodyText, text]
      exact ⟨_, spells_indentedOperation depth (isSymbol_update op) hTargetSpells hAmountSpells,
        .update op (.refl _) hTargetDenotes hAmountDenotes⟩
  | @Denotes.quantified _ name declared words bindings body hName hBindings hVariables hBody, hLexemes,
      hFinite, depth => by
      obtain ⟨printed, hSpells, hPrinted⟩ := spells_bodyText hBody
        (fun word hMem => hLexemes word (by simp [hMem])) hFinite (depth + 1)
      -- A type that was left out is not a word of the condition, but is written all the same.
      have hSymbols (binding : Binding) (hMem : binding ∈ bindings) :
          IsSymbol binding.name ∧ IsSymbol binding.type := by
        obtain ⟨hNameMem, hTypeMem, hNameGood, hTypeGood⟩ := mem_of_declares hBindings hMem
        refine ⟨isSymbol_of_isNoTypeName (hLexemes _ (by simp [hNameMem])) hNameGood, ?_⟩
        rcases hTypeMem with hTypeWord | hDefault
        · exact isSymbol_of_isNoTypeName (hLexemes _ (by simp [hTypeWord])) hTypeGood
        · rw [hDefault]
          exact isSymbol_defaultType
      have hDeclares := declares_typedWords fun binding hMem => (mem_of_declares hBindings hMem).2.2
      rw [bodyText]
      exact ⟨_, spells_quantifier depth hSymbols hSpells _,
        .quantified (.refl _) hDeclares hVariables hPrinted⟩

/-- A list of conditions is written with words that denote it again. -/
theorem texts_partsText {scope : Scope} {words : List String} {parts : List Condition} :
    DenoteParts scope words parts → (∀ word ∈ words, IsLexeme word) →
      (∀ x ∈ partsNumbers parts, x.isFinite = true) → ∀ depth,
        ∃ printed, (∀ rest, texts ((partsText scope depth parts).toList ++ rest) = printed ++ texts rest) ∧
          DenoteParts scope printed parts
  | .nil, _, _, _ => ⟨[], fun _ => rfl, .nil⟩
  -- Empty parts are dropped by the reader, so they are not written.
  | @DenoteParts.cons _ words rest none more hPart hParts, hLexemes, hFinite, depth =>
      texts_partsText hParts (fun word hMem => hLexemes word (by simp [hMem])) hFinite depth
  | @DenoteParts.cons _ words rest (some condition) more hPart hParts, hLexemes, hFinite, depth => by
      obtain ⟨printed, hSpells, hPrinted⟩ := spells_bodyText hPart
        (fun word hMem => hLexemes word (by simp [hMem]))
        (fun x hMem => hFinite x (List.mem_append_left _ hMem)) depth
      obtain ⟨morePrinted, hTexts, hMorePrinted⟩ := texts_partsText hParts
        (fun word hMem => hLexemes word (by simp [hMem]))
        (fun x hMem => hFinite x (List.mem_append_right _ hMem)) depth
      refine ⟨printed ++ morePrinted, fun after => ?_, .cons hPrinted hMorePrinted⟩
      have hSplit : (partsText scope depth ((some condition).toList ++ more)).toList ++ after =
          (bodyText scope depth (some condition) ++ "\n").toList ++
            ((partsText scope depth more).toList ++ after) := by
        simp [partsText, bodyText]
      rw [hSplit, texts_line hSpells, hTexts, List.append_assoc]

end

/-- Every condition that is read from a text, and whose numbers are finite, is read again from its printed
text, with any indentation. -/
theorem ofText_bodyText {text : String} {scope : Scope} {condition : Option Condition}
    (hText : ofText text scope = .ok condition) (hFinite : ∀ x ∈ bodyNumbers condition, x.isFinite = true)
    (depth : Nat) : ofText (bodyText scope depth condition) scope = .ok condition := by
  obtain ⟨printed, hSpells, hDenotes⟩ := spells_bodyText (ofText_eq_ok_iff.mp hText)
    (fun word hMem => isLexeme_of_mem_ofText hMem) hFinite depth
  rw [ofText_eq_ok_iff, hSpells.map_text_ofText]
  exact hDenotes

/-- Here a variable of a quantifier hides a variable of the scope, and a number loses a digit. -/
theorem ofText_bodyText_hiding :
    ofText "(EXISTS (?x - room) (>= (level ?x) 1.50))" ⟨[⟨"?x", "object"⟩]⟩ =
        .ok (some (.quantified [⟨"?x", "room"⟩] [1]
          (some (.comparison .atLeast (.function ⟨"level", [.slot 1]⟩) (.number 1.5))))) ∧
      (1.5 : Float).isFinite = true ∧
      ofText (bodyText ⟨[⟨"?x", "object"⟩]⟩ 2 (some (.quantified [⟨"?x", "room"⟩] [1]
          (some (.comparison .atLeast (.function ⟨"level", [.slot 1]⟩) (.number 1.5))))))
          ⟨[⟨"?x", "object"⟩]⟩ =
        .ok (some (.quantified [⟨"?x", "room"⟩] [1]
          (some (.comparison .atLeast (.function ⟨"level", [.slot 1]⟩) (.number 1.5))))) := by
  have hLeft : DenotesExpression ⟨[⟨"?x", "object"⟩, ⟨"?x", "room"⟩]⟩ ["(", "level", "?x", ")"]
      (.function ⟨"level", [.slot 1]⟩) :=
    .function ⟨by decide, by decide⟩ (by decide) (.cons (.slot (by decide) (by decide)) .nil)
  have hRight : DenotesExpression ⟨[⟨"?x", "object"⟩, ⟨"?x", "room"⟩]⟩ ["1.50"] (.number 1.5) :=
    .number ⟨by decide, by decide⟩ (by decide +kernel)
  have hBody : Denotes (Scope.extend ⟨[⟨"?x", "object"⟩]⟩ [⟨"?x", "room"⟩])
      ["(", ">=", "(", "level", "?x", ")", "1.50", ")"]
      (some (.comparison .atLeast (.function ⟨"level", [.slot 1]⟩) (.number 1.5))) :=
    .comparison .atLeast (by decide +kernel) hLeft hRight
  have hDeclares : Declares (typedWords [⟨"?x", "room"⟩]) [⟨"?x", "room"⟩] :=
    declares_typedWords (by decide)
  have hWords : (Token.ofText "(EXISTS (?x - room) (>= (level ?x) 1.50))").map Token.text =
      ["(", "EXISTS", "(", "?x", "-", "room", ")", "(", ">=", "(", "level", "?x", ")", "1.50", ")", ")"] := by
    decide +kernel
  have hText : ofText "(EXISTS (?x - room) (>= (level ?x) 1.50))" ⟨[⟨"?x", "object"⟩]⟩ =
      .ok (some (.quantified [⟨"?x", "room"⟩] [1]
        (some (.comparison .atLeast (.function ⟨"level", [.slot 1]⟩) (.number 1.5))))) := by
    rw [ofText_eq_ok_iff, hWords]
    exact .quantified (by decide +kernel) hDeclares (by decide) hBody
  have hFinite : (1.5 : Float).isFinite = true := by decide +kernel
  refine ⟨hText, hFinite, ofText_bodyText hText ?_ 2⟩
  intro x hMem
  obtain rfl := List.mem_singleton.mp hMem
  exact hFinite

end Condition
end PlanLogic
