import PlanLogic.Proofs.Reading.Keywords
import PlanLogic.Proofs.Reading.TypedLists

/-!
# The reader of conditions reads the grammar

What follows an opening parenthesis is decided by the next token: a closing parenthesis, a keyword or the name
of a predicate.  For each of them the words of the grammar and the steps of the reader are brought to the same
form; an induction on the bound then closes the recursion.
-/

namespace PlanLogic
namespace Reading

open Condition

/-! ## Keywords -/

theorem keyword_ofSymbol?_eq_some {text : String} {keyword : Keyword}
    (hKeyword : Keyword.ofSymbol? text = some keyword) : text = keyword.symbol := by
  have hSymbol := List.find?_some hKeyword
  simp only [beq_iff_eq] at hSymbol
  exact hSymbol.symm

theorem comparison_ofSymbol?_eq_some {text : String} {op : Comparison}
    (hOp : Comparison.ofSymbol? text = some op) : text = op.symbol := by
  have hSymbol := List.find?_some hOp
  simp only [beq_iff_eq] at hSymbol
  exact hSymbol.symm

theorem update_ofSymbol?_eq_some {text : String} {op : Update} (hOp : Update.ofSymbol? text = some op) :
    text = op.symbol := by
  have hSymbol := List.find?_some hOp
  simp only [beq_iff_eq] at hSymbol
  exact hSymbol.symm

theorem keyword_ofSymbol?_eq_none_iff {text : String} :
    Keyword.ofSymbol? text = none ↔ text ∉ ["and", "or", "not", "exists"] := by
  rw [Keyword.ofSymbol?, List.find?_eq_none]
  simp [Keyword.symbol, @eq_comm _ text]

theorem comparison_ofSymbol?_eq_none_iff {text : String} :
    Comparison.ofSymbol? text = none ↔ text ∉ [">=", ">", "<=", "<", "="] := by
  rw [Comparison.ofSymbol?, List.find?_eq_none]
  simp [Comparison.symbol, @eq_comm _ text]

theorem update_ofSymbol?_eq_none_iff {text : String} :
    Update.ofSymbol? text = none ↔
      text ∉ ["assign", "increase", "decrease", "scale-up", "scale-down"] := by
  rw [Update.ofSymbol?, List.find?_eq_none]
  simp [Update.symbol, @eq_comm _ text]

/-- A text is no keyword if no reader of a keyword takes it. -/
theorem notMem_keywords_iff {text : String} :
    text ∉ keywords ↔ Keyword.ofSymbol? text = none ∧ Comparison.ofSymbol? text = none ∧
      Update.ofSymbol? text = none ∧ text ∉ unsupportedKeywords := by
  rw [keyword_ofSymbol?_eq_none_iff, comparison_ofSymbol?_eq_none_iff, update_ofSymbol?_eq_none_iff,
    keywords, unsupportedKeywords, List.mem_append, List.mem_append, List.mem_append]
  tauto

theorem comparison_symbol_mem_keywords (op : Comparison) : op.symbol ∈ keywords := by
  cases op <;> decide

theorem update_symbol_mem_keywords (op : Update) : op.symbol ∈ keywords := by
  cases op <;> decide

/-! ## Words by their keyword -/

/-- The words after the name of a comparison, an update or a predicate. -/
def plainAfter (scope : Scope) (name : String) : Language Condition := fun words condition =>
  match Comparison.ofSymbol? (keywordOf name) with
  | some op =>
    ∃ leftWords rightWords left right, words = leftWords ++ rightWords ++ [")"] ∧
      DenotesExpression scope leftWords left ∧ DenotesExpression scope rightWords right ∧
      condition = .comparison op left right
  | none =>
    match Update.ofSymbol? (keywordOf name) with
    | some op =>
      ∃ targetWords amountWords target amount, words = targetWords ++ amountWords ++ [")"] ∧
        DenotesExpression scope targetWords (.function target) ∧
        DenotesExpression scope amountWords amount ∧ condition = .update op target amount
    | none =>
      keywordOf name ∉ unsupportedKeywords ∧ IsWord name ∧
        ∃ args, Language.closed (ArgumentsOf scope) words args ∧ condition = .atom ⟨name, args⟩

/-- The words after a name that follows an opening parenthesis. -/
def namedAfter (scope : Scope) (name : String) : Language (Option Condition) := fun words condition =>
  match Keyword.ofSymbol? (keywordOf name) with
  | some .all => ∃ parts, Language.closed (DenoteParts scope) words parts ∧ condition = some (.conjunction parts)
  | some .any => ∃ parts, Language.closed (DenoteParts scope) words parts ∧ condition = some (.disjunction parts)
  | some .not =>
    ∃ part, Language.closed (Denotes scope) words (some part) ∧ condition = some (.negation part)
  | some .some =>
    ∃ declared bindings rest body, words = "(" :: (declared ++ ")" :: rest) ∧ Declares declared bindings ∧
      (∀ binding ∈ bindings, isVariable binding.name = true) ∧
      Language.closed (Denotes (scope.extend bindings)) rest body ∧
      condition = some (.quantified bindings (List.range' scope.size bindings.length) body)
  | none => ∃ plain, plainAfter scope name words plain ∧ condition = some plain

theorem comparison_notLogical (op : Comparison) : Keyword.ofSymbol? op.symbol = none := by
  cases op <;> decide

theorem update_notLogical (op : Update) :
    Keyword.ofSymbol? op.symbol = none ∧ Comparison.ofSymbol? op.symbol = none := by
  cases op <;> decide

theorem namedAfter_of_denotes {scope : Scope} {name : String} {words : List String}
    {condition : Option Condition} (hClose : name ≠ ")")
    (hDenotes : Denotes scope ("(" :: name :: words) condition) : namedAfter scope name words condition := by
  cases hDenotes with
  | empty => exact absurd rfl hClose
  | conjunction hName hParts =>
      have hKeyword : keywordOf name = "and" := (keywordOf_eq_iff (by decide)).mpr hName
      rw [namedAfter, show Keyword.ofSymbol? (keywordOf name) = some .all from hKeyword ▸ rfl]
      exact ⟨_, ⟨_, rfl, hParts⟩, rfl⟩
  | disjunction hName hParts =>
      have hKeyword : keywordOf name = "or" := (keywordOf_eq_iff (by decide)).mpr hName
      rw [namedAfter, show Keyword.ofSymbol? (keywordOf name) = some .any from hKeyword ▸ rfl]
      exact ⟨_, ⟨_, rfl, hParts⟩, rfl⟩
  | negation hName hPart =>
      have hKeyword : keywordOf name = "not" := (keywordOf_eq_iff (by decide)).mpr hName
      rw [namedAfter, show Keyword.ofSymbol? (keywordOf name) = some .not from hKeyword ▸ rfl]
      exact ⟨_, ⟨_, rfl, hPart⟩, rfl⟩
  | quantified hName hBindings hVariables hBody =>
      have hKeyword : keywordOf name = "exists" := (keywordOf_eq_iff (by decide)).mpr hName
      rw [namedAfter, show Keyword.ofSymbol? (keywordOf name) = some .some from hKeyword ▸ rfl]
      exact ⟨_, _, _, _, rfl, hBindings, hVariables, ⟨_, rfl, hBody⟩, rfl⟩
  | comparison op hName hLeft hRight =>
      have hKeyword : keywordOf name = op.symbol := (keywordOf_eq_iff (comparison_symbol_mem_keywords op)).mpr hName
      rw [namedAfter, hKeyword, comparison_notLogical op]
      refine ⟨_, ?_, rfl⟩
      rw [plainAfter, hKeyword, Comparison.ofSymbol?_symbol]
      exact ⟨_, _, _, _, rfl, hLeft, hRight, rfl⟩
  | update op hName hTarget hAmount =>
      have hKeyword : keywordOf name = op.symbol := (keywordOf_eq_iff (update_symbol_mem_keywords op)).mpr hName
      obtain ⟨hLogical, hComparison⟩ := update_notLogical op
      rw [namedAfter, hKeyword, hLogical]
      refine ⟨_, ?_, rfl⟩
      rw [plainAfter, hKeyword, hComparison, Update.ofSymbol?_symbol]
      exact ⟨_, _, _, _, rfl, hTarget, hAmount, rfl⟩
  | atom hName hWord hArgs =>
      obtain ⟨hLogical, hComparison, hUpdate, hSupported⟩ := notMem_keywords_iff.mp (keywordOf_mem_keywords_iff.not.mpr hName)
      rw [namedAfter, hLogical]
      refine ⟨_, ?_, rfl⟩
      rw [plainAfter, hComparison, hUpdate]
      exact ⟨hSupported, hWord, _, ⟨_, rfl, hArgs⟩, rfl⟩

theorem denotes_of_namedAfter {scope : Scope} {name : String} {words : List String}
    {condition : Option Condition} (hNamed : namedAfter scope name words condition) :
    Denotes scope ("(" :: name :: words) condition := by
  unfold namedAfter at hNamed
  split at hNamed
  · next hKeyword =>
      obtain ⟨parts, ⟨front, rfl, hParts⟩, rfl⟩ := hNamed
      exact .conjunction ((keywordOf_eq_iff (by decide)).mp (keyword_ofSymbol?_eq_some hKeyword)) hParts
  · next hKeyword =>
      obtain ⟨parts, ⟨front, rfl, hParts⟩, rfl⟩ := hNamed
      exact .disjunction ((keywordOf_eq_iff (by decide)).mp (keyword_ofSymbol?_eq_some hKeyword)) hParts
  · next hKeyword =>
      obtain ⟨part, ⟨front, rfl, hPart⟩, rfl⟩ := hNamed
      exact .negation ((keywordOf_eq_iff (by decide)).mp (keyword_ofSymbol?_eq_some hKeyword)) hPart
  · next hKeyword =>
      obtain ⟨declared, bindings, _, body, rfl, hBindings, hVariables, ⟨front, rfl, hBody⟩, rfl⟩ := hNamed
      exact .quantified ((keywordOf_eq_iff (by decide)).mp (keyword_ofSymbol?_eq_some hKeyword)) hBindings hVariables hBody
  · next hLogical =>
      obtain ⟨plain, hPlain, rfl⟩ := hNamed
      unfold plainAfter at hPlain
      split at hPlain
      · next op hComparison =>
          obtain ⟨leftWords, rightWords, left, right, rfl, hLeft, hRight, rfl⟩ := hPlain
          have hName := (keywordOf_eq_iff (comparison_symbol_mem_keywords op)).mp (comparison_ofSymbol?_eq_some hComparison)
          exact .comparison op hName hLeft hRight
      next hComparison =>
      split at hPlain
      · next op hUpdate =>
          obtain ⟨targetWords, amountWords, target, amount, rfl, hTarget, hAmount, rfl⟩ := hPlain
          have hName := (keywordOf_eq_iff (update_symbol_mem_keywords op)).mp (update_ofSymbol?_eq_some hUpdate)
          exact .update op hName hTarget hAmount
      · next hUpdate =>
          obtain ⟨hSupported, hWord, args, ⟨front, rfl, hArgs⟩, rfl⟩ := hPlain
          have hName := notMem_keywords_iff.mpr ⟨hLogical, hComparison, hUpdate, hSupported⟩
          exact .atom (keywordOf_mem_keywords_iff.not.mp hName) hWord hArgs

/-- A word that starts with an opening parenthesis and a name, by that name. -/
theorem denotes_named_iff {scope : Scope} {name : String} {words : List String}
    {condition : Option Condition} (hClose : name ≠ ")") :
    Denotes scope ("(" :: name :: words) condition ↔ namedAfter scope name words condition :=
  ⟨namedAfter_of_denotes hClose, denotes_of_namedAfter⟩

theorem denotes_close_iff {scope : Scope} {name : String} {words : List String}
    {condition : Option Condition} (hClose : name = ")") :
    Denotes scope ("(" :: name :: words) condition ↔ words = [] ∧ condition = none := by
  have hOther : ∀ keyword ∈ keywords, ¬ IsCasing ")" keyword := by decide
  constructor
  · intro hDenotes
    subst hClose
    cases hDenotes with
    | empty => exact ⟨rfl, rfl⟩
    | conjunction hName => exact absurd hName (hOther _ (by decide))
    | disjunction hName => exact absurd hName (hOther _ (by decide))
    | negation hName => exact absurd hName (hOther _ (by decide))
    | atom hName hWord => exact absurd rfl (isWord_iff.mp hWord).2.1
    | comparison op hName => exact absurd hName (hOther _ (comparison_symbol_mem_keywords op))
    | update op hName => exact absurd hName (hOther _ (update_symbol_mem_keywords op))
    | quantified hName => exact absurd hName (hOther _ (by decide))
  · rintro ⟨rfl, rfl⟩
    rw [hClose]
    exact .empty

/-! ## The readers -/

/-- The rest of a condition after a name that follows an opening parenthesis. -/
def readNamed (bound : Nat) (scope : Scope) (name : String) : Reading (Option Condition) :=
  match Keyword.ofSymbol? (keywordOf name) with
  | some .all => do return some (.conjunction (← readParts bound scope))
  | some .any => do return some (.disjunction (← readParts bound scope))
  | some .not => do
    expect "("
    match ← readOpened bound scope with
    | none => refuse .emptyNegation
    | some part =>
      expect ")"
      return some (.negation part)
  | some .some => do
    let bindings ← readVariables
    expect "("
    let body ← readOpened bound (scope.extend bindings)
    expect ")"
    return some (.quantified bindings (List.range' scope.size bindings.length) body)
  | none => do return some (← readPlain scope name)

theorem readOpened_nil (bound : Nat) (scope : Scope) : readOpened bound scope [] = .error .endOfInput [] := by
  cases bound <;> rfl

theorem readOpened_cons (bound : Nat) (scope : Scope) (token : Token) (tokens : List Token) :
    readOpened (bound + 1) scope (token :: tokens) =
      if token.text = ")" then .ok none tokens else readNamed bound scope token.text tokens := by
  obtain ⟨text, position⟩ := token
  by_cases hClose : text = ")"
  · subst hClose
    rfl
  · rw [if_neg hClose]
    simp only [readOpened, bind, EStateM.bind, peek, next, List.head?_cons, Option.map_some,
      Option.some.injEq, hClose, if_false]
    rfl

theorem readParts_nil (bound : Nat) (scope : Scope) :
    readParts bound scope [] = .error (.expected "(" none) [] := by
  cases bound <;> rfl

theorem readParts_cons (bound : Nat) (scope : Scope) (token : Token) (tokens : List Token) :
    readParts (bound + 1) scope (token :: tokens) =
      if token.text = ")" then
        .ok [] tokens
      else if token.text = "(" then
        (do
          let part ← readOpened bound scope
          let parts ← readParts bound scope
          return part.toList ++ parts : Reading (List Condition)) tokens
      else
        .error (.expected "(" (some token.text)) (token :: tokens) := by
  obtain ⟨text, position⟩ := token
  by_cases hClose : text = ")"
  · subst hClose
    rfl
  · rw [if_neg hClose]
    by_cases hOpen : text = "("
    · subst hOpen
      rfl
    · simp [readParts, bind, EStateM.bind, peek, expect, hClose, hOpen]

theorem readsWithin_readComparison (scope : Scope) (op : Comparison) (bound : Nat) :
    ReadsWithin bound (readComparison scope op) fun words condition =>
      ∃ leftWords rightWords left right, words = leftWords ++ rightWords ++ [")"] ∧
        DenotesExpression scope leftWords left ∧ DenotesExpression scope rightWords right ∧
        condition = .comparison op left right := by
  have hExpression := reads_readExpression scope bound
  refine (hExpression.bind fun left => hExpression.closed_map (Condition.comparison op left)).congr
    fun words condition => ?_
  constructor
  · rintro ⟨leftWords, left, _, rfl, hLeft, right, ⟨rightWords, rfl, hRight⟩, rfl⟩
    exact ⟨leftWords, rightWords, left, right, by simp, hLeft, hRight, rfl⟩
  · rintro ⟨leftWords, rightWords, left, right, rfl, hLeft, hRight, rfl⟩
    exact ⟨leftWords, left, _, List.append_assoc .., hLeft, right, ⟨rightWords, rfl, hRight⟩, rfl⟩

/-- The rest of an update after the expression that it changes. -/
def readAmount (scope : Scope) (op : Update) : Expression → Reading Condition
  | .function target => do
    let amount ← readExpression scope
    expect ")"
    return .update op target amount
  | _ => refuse (.updateTarget op.symbol)

theorem readUpdate_eq (scope : Scope) (op : Update) :
    readUpdate scope op = readExpression scope >>= readAmount scope op := by
  rw [readUpdate]
  congr 1

theorem readsWithin_readAmount (scope : Scope) (op : Update) (changed : Expression) (bound : Nat) :
    ReadsWithin bound (readAmount scope op changed) fun words condition =>
      ∃ target amount, changed = .function target ∧ Language.closed (DenotesExpression scope) words amount ∧
        condition = .update op target amount := by
  unfold readAmount
  split
  · next target =>
      refine ((reads_readExpression scope bound).closed_map (Condition.update op target)).congr
        fun words condition => ?_
      simp only [Expression.function.injEq, exists_and_left, exists_eq_left']
  · next hOther =>
      refine (reads_refuse _ bound).congr fun words condition => ?_
      simp only [false_iff]
      rintro ⟨target, amount, rfl, -⟩
      exact hOther target rfl

theorem readsWithin_readUpdate (scope : Scope) (op : Update) (bound : Nat) :
    ReadsWithin bound (readUpdate scope op) fun words condition =>
      ∃ targetWords amountWords target amount, words = targetWords ++ amountWords ++ [")"] ∧
        DenotesExpression scope targetWords (.function target) ∧
        DenotesExpression scope amountWords amount ∧ condition = .update op target amount := by
  rw [readUpdate_eq]
  refine ((reads_readExpression scope bound).bind fun changed =>
    readsWithin_readAmount scope op changed bound).congr fun words condition => ?_
  constructor
  · rintro ⟨targetWords, _, _, rfl, hTarget, target, amount, rfl, ⟨amountWords, rfl, hAmount⟩, rfl⟩
    exact ⟨targetWords, amountWords, target, amount, by simp, hTarget, hAmount, rfl⟩
  · rintro ⟨targetWords, amountWords, target, amount, rfl, hTarget, hAmount, rfl⟩
    exact ⟨targetWords, _, _, List.append_assoc .., hTarget, target, amount, rfl,
      ⟨amountWords, rfl, hAmount⟩, rfl⟩

theorem readsWithin_readPlain (scope : Scope) (name : String) (bound : Nat) :
    ReadsWithin bound (readPlain scope name) (plainAfter scope name) := by
  unfold plainAfter
  cases hComparison : Comparison.ofSymbol? (keywordOf name) with
  | some op =>
      simp only [readPlain, hComparison]
      exact readsWithin_readComparison scope op bound
  | none =>
  cases hUpdate : Update.ofSymbol? (keywordOf name) with
  | some op =>
      simp only [readPlain, hComparison, hUpdate]
      exact readsWithin_readUpdate scope op bound
  | none =>
  simp only [readPlain, hComparison, hUpdate]
  split
  · next hUnsupported =>
      refine (reads_refuse _ bound).congr fun words condition => ?_
      simp only [List.contains_eq_mem, decide_eq_true_eq] at hUnsupported
      simp only [hUnsupported, not_true_eq_false, false_and]
  next hSupported =>
  split
  · next hRefused =>
      refine (reads_refuse _ bound).congr fun words condition => ?_
      simp only [false_iff]
      rintro ⟨-, hWord, -⟩
      simp [hWord.noParenthesis, hWord.noVariable] at hRefused
  · next hAllowed =>
      have hWord : IsWord name := by
        simp only [Bool.or_eq_true, not_or, Bool.not_eq_true] at hAllowed
        exact ⟨hAllowed.1, hAllowed.2⟩
      simp only [List.contains_eq_mem, decide_eq_true_eq] at hSupported
      refine ((reads_readArguments scope bound).map fun args =>
        Condition.atom ⟨name, args⟩).congr fun words condition => ?_
      simp only [hSupported, not_false_eq_true, hWord, true_and]

/-- Every condition starts with an opening parenthesis. -/
theorem denotes_cons_open {scope : Scope} {text : String} {words : List String}
    {condition : Option Condition} (hDenotes : Denotes scope (text :: words) condition) : text = "(" := by
  generalize hWords : text :: words = all at hDenotes
  cases hDenotes <;> exact (List.cons.inj hWords).1

theorem not_denotes_nil {scope : Scope} {condition : Option Condition} : ¬ Denotes scope [] condition := by
  intro hDenotes
  cases hDenotes

/-- A closed list of conditions by its first token. -/
theorem closed_denoteParts_cons {scope : Scope} {text : String} {words : List String}
    {parts : List Condition} :
    Language.closed (DenoteParts scope) (text :: words) parts ↔
      (text = ")" ∧ words = [] ∧ parts = []) ∨
        text = "(" ∧ ∃ partWords rest part more, words = partWords ++ rest ∧
          Denotes scope (text :: partWords) part ∧ Language.closed (DenoteParts scope) rest more ∧
          parts = part.toList ++ more := by
  constructor
  · rintro ⟨front, hWords, hParts⟩
    cases hParts with
    | nil =>
        obtain ⟨rfl, rfl⟩ := List.cons.inj hWords
        exact .inl ⟨rfl, rfl, rfl⟩
    | @cons _ partWords restWords part more hPart hMore =>
        cases partWords with
        | nil => exact absurd hPart not_denotes_nil
        | cons first partWords =>
            obtain ⟨rfl, rfl⟩ := List.cons.inj hWords
            exact .inr ⟨denotes_cons_open hPart, partWords, restWords ++ [")"], part, more, by simp, hPart,
              ⟨restWords, rfl, hMore⟩, rfl⟩
  · rintro (⟨rfl, rfl, rfl⟩ | ⟨-, partWords, _, part, more, rfl, hPart, ⟨restWords, rfl, hMore⟩, rfl⟩)
    · exact ⟨[], rfl, .nil⟩
    · exact ⟨text :: partWords ++ restWords, by simp, .cons hPart hMore⟩

/-- What may follow an opening parenthesis. -/
def openedLanguage (scope : Scope) : Language (Option Condition) := fun words condition =>
  Denotes scope ("(" :: words) condition

theorem not_openedLanguage_nil {scope : Scope} {condition : Option Condition} :
    ¬ openedLanguage scope [] condition := by
  intro hDenotes
  generalize ["("] = all at hDenotes
  cases hDenotes

theorem closed_openedLanguage_iff {scope : Scope} {words : List String} {condition : Option Condition} :
    Language.closed (Denotes scope) words condition ↔
      ∃ rest, words = "(" :: rest ∧ Language.closed (openedLanguage scope) rest condition := by
  constructor
  · rintro ⟨front, rfl, hDenotes⟩
    cases front with
    | nil => exact absurd hDenotes not_denotes_nil
    | cons first front =>
        obtain rfl := denotes_cons_open hDenotes
        exact ⟨front ++ [")"], rfl, front, rfl, hDenotes⟩
  · rintro ⟨_, rfl, front, rfl, hDenotes⟩
    exact ⟨"(" :: front, rfl, hDenotes⟩

/-- What follows a name is read as the grammar says, if inner conditions are. -/
theorem readsWithin_readNamed {bound : Nat}
    (hOpened : ∀ scope, ReadsWithin bound (readOpened bound scope) (openedLanguage scope))
    (hParts : ∀ scope, ReadsWithin bound (readParts bound scope) (Language.closed (DenoteParts scope)))
    (scope : Scope) (name : String) :
    ReadsWithin bound (readNamed bound scope name) (namedAfter scope name) := by
  unfold readNamed namedAfter
  split
  · exact (hParts scope).map fun parts => some (Condition.conjunction parts)
  · exact (hParts scope).map fun parts => some (Condition.disjunction parts)
  -- An empty condition has no negation, so what comes after depends on the part.
  · have hNegated (part : Option Condition) :
        ReadsWithin bound
          (match part with
            | none => refuse .emptyNegation
            | some part => do
              expect ")"
              return some (Condition.negation part))
          fun words condition =>
            ∃ inner, part = some inner ∧ words = [")"] ∧ condition = some (Condition.negation inner) := by
      cases part with
      | none => exact (reads_refuse _ bound).congr fun words condition => by simp
      | some inner =>
          refine ((reads_expect ")" bound).map fun _ => some (Condition.negation inner)).congr
            fun words condition => ?_
          simp
    refine ((reads_expect "(" bound).bind fun _ => (hOpened scope).bind hNegated).congr
      fun words condition => ?_
    simp only [closed_openedLanguage_iff]
    constructor
    · rintro ⟨_, _, _, rfl, rfl, front, _, _, rfl, hDenotes, part, rfl, rfl, rfl⟩
      exact ⟨part, ⟨front ++ [")"], rfl, front, rfl, hDenotes⟩, rfl⟩
    · rintro ⟨part, ⟨_, rfl, front, rfl, hDenotes⟩, rfl⟩
      exact ⟨["("], (), _, rfl, rfl, front, some part, [")"], rfl, hDenotes, part, rfl, rfl, rfl⟩
  · refine ((reads_readVariables bound).bind fun bindings => (reads_expect "(" bound).bind fun _ =>
      (hOpened (scope.extend bindings)).closed_map fun body =>
        some (Condition.quantified bindings (List.range' scope.size bindings.length) body)).congr
      fun words condition => ?_
    simp only [closed_openedLanguage_iff]
    constructor
    · rintro ⟨_, bindings, _, rfl, ⟨declared, rfl, hDeclares, hVariables⟩, _, _, rest, rfl, rfl, body,
        hBody, rfl⟩
      exact ⟨declared, bindings, _, body, by simp, hDeclares, hVariables, ⟨rest, rfl, hBody⟩, rfl⟩
    · rintro ⟨declared, bindings, _, body, rfl, hDeclares, hVariables, ⟨rest, rfl, hBody⟩, rfl⟩
      exact ⟨_, bindings, _, by simp, ⟨declared, rfl, hDeclares, hVariables⟩, ["("], (), rest, rfl, rfl,
        body, hBody, rfl⟩
  · exact (readsWithin_readPlain scope name bound).map some

/-- Conditions and lists of conditions are read from at most `bound` tokens as the grammar says. -/
theorem readsWithin_conditions (bound : Nat) :
    (∀ scope, ReadsWithin bound (readOpened bound scope) (openedLanguage scope)) ∧
      ∀ scope, ReadsWithin bound (readParts bound scope) (Language.closed (DenoteParts scope)) := by
  -- The readers call each other, but each call has spent a token.
  induction bound with
  | zero =>
      exact ⟨fun scope => .zero (readOpened_nil 0 scope) fun _ => not_openedLanguage_nil,
        fun scope => .zero (readParts_nil 0 scope) fun _ => not_closed_nil⟩
  | succ bound ih =>
      obtain ⟨hOpened, hParts⟩ := ih
      constructor
      · intro scope
        refine .of_head (readOpened_nil _ scope) (fun _ => not_openedLanguage_nil) fun token tokens => .inl ?_
        have hStep := readOpened_cons bound scope token tokens
        by_cases hClose : token.text = ")"
        · refine ⟨pure none, ?_, by rw [hStep, if_pos hClose]; rfl⟩
          refine (reads_pure none bound).congr fun words condition => ?_
          exact (denotes_close_iff hClose).symm
        · refine ⟨readNamed bound scope token.text, ?_, by rw [hStep, if_neg hClose]⟩
          refine (readsWithin_readNamed hOpened hParts scope token.text).congr fun words condition => ?_
          exact (denotes_named_iff hClose).symm
      · intro scope
        refine .of_head (readParts_nil _ scope) (fun _ => not_closed_nil) fun token tokens => ?_
        have hStep := readParts_cons bound scope token tokens
        by_cases hClose : token.text = ")"
        · refine .inl ⟨pure [], ?_, by rw [hStep, if_pos hClose]; rfl⟩
          refine (reads_pure [] bound).congr fun words parts => ?_
          simp [closed_denoteParts_cons, hClose]
        by_cases hOpen : token.text = "("
        · refine .inl ⟨_, ?_, by rw [hStep, if_neg hClose, if_pos hOpen]⟩
          refine ((hOpened scope).bind fun part => (hParts scope).map (part.toList ++ ·)).congr
            fun words parts => ?_
          simp only [closed_denoteParts_cons, hOpen, true_and]
          constructor
          · rintro ⟨partWords, part, rest, rfl, hPart, more, hMore, rfl⟩
            exact .inr ⟨partWords, rest, part, more, rfl, hPart, hMore, rfl⟩
          · rintro (⟨hFalse, -⟩ | ⟨partWords, rest, part, more, rfl, hPart, hMore, rfl⟩)
            · simp at hFalse
            · exact ⟨partWords, part, rest, rfl, hPart, more, hMore, rfl⟩
        -- This refusal leaves the token where it is.
        · refine .inr ⟨⟨_, by rw [hStep, if_neg hClose, if_neg hOpen]⟩, fun words parts => ?_⟩
          simp [closed_denoteParts_cons, hClose, hOpen]

/-- The reader of a condition reads the grammar. -/
theorem reads_read (scope : Scope) : Reads (Condition.read scope) (Denotes scope) := by
  intro bound
  refine ((reads_expect "(" bound).bind fun _ =>
    reads_of_length (fun bound => (readsWithin_conditions bound).1 scope) bound).congr
    fun words condition => ?_
  constructor
  · rintro ⟨_, _, rest, rfl, rfl, hDenotes⟩
    exact hDenotes
  · intro hDenotes
    cases words with
    | nil => exact absurd hDenotes not_denotes_nil
    | cons first rest =>
        obtain rfl := denotes_cons_open hDenotes
        exact ⟨["("], (), rest, rfl, rfl, hDenotes⟩

end Reading
end PlanLogic
