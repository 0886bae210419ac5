import PlanLogic.Proofs.Evaluation.Coupling
import PlanLogic.Proofs.Facts.Keys
import PlanLogic.Proofs.Printing.RoundTrip
import PlanLogic.Tree.Lowering

/-!
# Trees that were read

What a tree names that was read from a text: its names are words of the text, names that were put in for
variables, and placeholders, and no predicate is called by a keyword.  So a document can state every fact that
a predicate names, and the text of every head that a function names can be cut into its names again.
-/

namespace PlanLogic

/-- A tree that was read from a text, with names put in for variables of the scope. -/
inductive Tree.Compiled : Tree → Prop
  | ofText {text : String} {scope : Scope} {condition : Option Condition} {objects : List String}
      (hText : Condition.ofText text scope = .ok condition) (hObjects : ∀ name ∈ objects, IsName name) :
      Compiled (Tree.ofCondition condition objects)

/-- A tree without quantifiers. -/
def Tree.QuantifierFree (tree : Tree) : Prop :=
  ∀ node ∈ tree.nodes, node.kind ≠ .quantifier

/-! ## Names -/

theorem Token.isSymbolChar_of_isDigit {c : Char} (hDigit : c.isDigit = true) : isSymbolChar c = true := by
  obtain ⟨digit, hBelow, rfl⟩ := Decimal.exists_digit_of_isDigit hDigit
  exact isSymbolChar_of_mem_numberChars _ (Decimal.digitChar_mem_numberChars hBelow)

theorem isName_placeholder (slot : Nat) : IsName (placeholder slot) := by
  have hText : (placeholder slot).toList = '?' :: Nat.toDigits 10 slot := by
    simp [placeholder]
  refine ⟨by rw [hText]; exact List.cons_ne_nil _ _, fun c hMem => ?_⟩
  rw [hText] at hMem
  rcases List.mem_cons.mp hMem with rfl | hDigit
  · decide
  · exact Token.isSymbolChar_of_isDigit (Nat.isDigit_of_mem_toDigits (by decide) (by decide) hDigit)

theorem isName_slotName {objects : List String} (hObjects : ∀ name ∈ objects, IsName name) (slot : Nat) :
    IsName (slotName objects slot) := by
  rw [slotName]
  cases hObject : objects[slot]? with
  | none => exact isName_placeholder slot
  | some name => exact hObjects name (List.mem_of_getElem? hObject)

theorem ArgumentOf.isName_lowered {scope : Scope} {word : String} {arg : Term} (hArg : ArgumentOf scope word arg)
    (hLexeme : Token.IsLexeme word) {objects : List String} (hObjects : ∀ name ∈ objects, IsName name) :
    IsName (arg.lowered objects) := by
  cases hArg with
  | slot _ _ => exact isName_slotName hObjects _
  | object hWord => exact IsName.of_isSymbol (isSymbol_of_isWord hLexeme hWord)

/-- A name that is no equality sign and no variable is not refused as the name of a fact. -/
theorem isRefusedName_of_isWord {name : String} (hWord : IsWord name) (hEquals : name ≠ "=") :
    Fact.isRefusedName name.toList = false := by
  rw [← Bool.not_eq_true, Fact.isRefusedName_iff, not_or, Bool.not_eq_true]
  exact ⟨hEquals, hWord.noVariable⟩

/-- A name that is no keyword and no variable is not refused as the name of a fact. -/
theorem isRefusedName_of_not_isKeyword {name : String} (hName : ¬ Condition.IsKeyword name) (hWord : IsWord name) :
    Fact.isRefusedName name.toList = false := by
  refine isRefusedName_of_isWord hWord fun hSame => ?_
  rw [hSame] at hName
  exact hName (by decide)

namespace Vocabulary

/-! ## The vocabulary of documents -/

/-- The facts that a document can state, and the heads and objects that are made of names. -/
def writable (quantifies : Prop) : Vocabulary :=
  ⟨Fact.Writable, Fact.Spelled, IsName, quantifies⟩

theorem spelled_rename {names : Renaming} (hNames : ∀ entry ∈ names, IsName entry.2) {fact : Fact}
    (hFact : fact.Spelled) : (fact.rename names).Spelled :=
  ⟨hFact.name, Fact.forall_args_rename hNames hFact.args⟩

theorem closed_writable (quantifies : Prop) : (writable quantifies).Closed where
  fact hNames hFact := ⟨spelled_rename hNames hFact.spelled, hFact.allowed⟩
  head hNames hHead := spelled_rename hNames hHead

/-- Without quantifiers the objects of the fact base play no part. -/
theorem Covers.of_quantifierFree {tree : Tree} {quantifies other : Prop}
    (hTree : (writable quantifies).Covers tree) (hFree : tree.QuantifierFree) : (writable other).Covers tree :=
  fun node hMem =>
    ⟨(hTree node hMem).fact, (hTree node hMem).head, fun hKind => absurd hKind (hFree node hMem)⟩

/-! ## What the block of a condition names -/

variable {objects : List String}

theorem spelled_of_argumentsOf (hObjects : ∀ name ∈ objects, IsName name) {scope : Scope} {name : String}
    {words : List String} {args : List Term} (hName : IsName name) (hArgs : ArgumentsOf scope words args)
    (hLexemes : ∀ word ∈ words, Token.IsLexeme word) (kind : NodeKind) :
    (Node.fact { kind := kind, name := name, parameters := Atom.parameters objects ⟨name, args⟩ }).Spelled := by
  refine ⟨hName, ?_⟩
  rw [Node.fact, Node.parameterNames, Atom.parameters, List.map_map]
  intro arg hMem
  obtain ⟨term, hTerm, rfl⟩ := List.mem_map.mp hMem
  clear hMem
  induction hArgs with
  | nil => exact absurd hTerm List.not_mem_nil
  | cons hArg _ ih =>
      rcases List.mem_cons.mp hTerm with rfl | hLater
      · exact hArg.isName_lowered (hLexemes _ List.mem_cons_self) hObjects
      · exact ih (fun word hWord => hLexemes word (List.mem_cons_of_mem _ hWord)) hLater

theorem coversNode_of_mem_nodes_expression (hObjects : ∀ name ∈ objects, IsName name) {scope : Scope}
    {words : List String} {expression : Expression}
    (hExpression : DenotesExpression scope words expression) (hLexemes : ∀ word ∈ words, Token.IsLexeme word)
    {start : Nat} : ∀ node ∈ expression.nodes objects start, (writable True).CoversNode node := by
  induction hExpression generalizing start with
  | number _ _ => exact List.forall_mem_singleton.mpr ⟨nofun, nofun, nofun⟩
  | slot _ _ => exact List.forall_mem_singleton.mpr ⟨nofun, nofun, nofun⟩
  | constant _ _ => exact List.forall_mem_singleton.mpr ⟨nofun, nofun, nofun⟩
  | function hName _ hArgs =>
      have hSymbol := isSymbol_of_isWord (hLexemes _ (by simp)) hName
      have hSpelled := spelled_of_argumentsOf hObjects (IsName.of_isSymbol hSymbol) hArgs
        (fun word hMem => hLexemes word (by simp [hMem])) .function
      exact List.forall_mem_singleton.mpr ⟨nofun, fun _ => hSpelled, nofun⟩
  | arithmetic op _ _ ihLeft ihRight =>
      rw [Expression.nodes]
      refine List.forall_mem_cons.mpr ⟨⟨nofun, nofun, nofun⟩, List.forall_mem_append.mpr ⟨?_, ?_⟩⟩
      · exact ihLeft fun word hMem => hLexemes word (by simp [hMem])
      · exact ihRight fun word hMem => hLexemes word (by simp [hMem])

mutual

theorem coversNode_of_mem_bodyNodes (hObjects : ∀ name ∈ objects, IsName name) {scope : Scope}
    {words : List String} {condition : Option Condition} :
    Condition.Denotes scope words condition → (∀ word ∈ words, Token.IsLexeme word) → ∀ {start : Nat},
      ∀ node ∈ (Condition.bodyNodes objects start condition).2, (writable True).CoversNode node
  | .empty, _, start => fun _ hMem => absurd hMem List.not_mem_nil
  | .conjunction _ hParts, hLexemes, start => by
      rw [Condition.bodyNodes, Condition.nodes]
      exact List.forall_mem_cons.mpr ⟨⟨nofun, nofun, nofun⟩,
        coversNode_of_mem_partNodes hObjects hParts fun word hMem => hLexemes word (by simp [hMem])⟩
  | .disjunction _ hParts, hLexemes, start => by
      rw [Condition.bodyNodes, Condition.nodes]
      exact List.forall_mem_cons.mpr ⟨⟨nofun, nofun, nofun⟩,
        coversNode_of_mem_partNodes hObjects hParts fun word hMem => hLexemes word (by simp [hMem])⟩
  | .negation _ hPart, hLexemes, start => by
      rw [Condition.bodyNodes, Condition.nodes]
      exact List.forall_mem_cons.mpr ⟨⟨nofun, nofun, nofun⟩,
        coversNode_of_mem_bodyNodes hObjects hPart fun word hMem => hLexemes word (by simp [hMem])⟩
  | .atom hName hWord hArgs, hLexemes, start => by
      have hSymbol := isSymbol_of_isWord (hLexemes _ (by simp)) hWord
      have hSpelled := spelled_of_argumentsOf hObjects (IsName.of_isSymbol hSymbol) hArgs
        (fun word hMem => hLexemes word (by simp [hMem])) .predicate
      rw [Condition.bodyNodes, Condition.nodes]
      exact List.forall_mem_singleton.mpr
        ⟨fun _ => ⟨hSpelled, isRefusedName_of_not_isKeyword hName hWord⟩, nofun, nofun⟩
  | .comparison _ _ hLeft hRight, hLexemes, start => by
      rw [Condition.bodyNodes, Condition.nodes]
      refine List.forall_mem_cons.mpr ⟨⟨nofun, nofun, nofun⟩, List.forall_mem_append.mpr ⟨?_, ?_⟩⟩
      · exact coversNode_of_mem_nodes_expression hObjects hLeft fun word hMem => hLexemes word (by simp [hMem])
      · exact coversNode_of_mem_nodes_expression hObjects hRight fun word hMem => hLexemes word (by simp [hMem])
  | .update _ _ hTarget hAmount, hLexemes, start => by
      rw [Condition.bodyNodes, Condition.nodes]
      refine List.forall_mem_cons.mpr ⟨⟨nofun, nofun, nofun⟩, List.forall_mem_append.mpr ⟨?_, ?_⟩⟩
      · exact coversNode_of_mem_nodes_expression hObjects hTarget fun word hMem => hLexemes word (by simp [hMem])
      · exact coversNode_of_mem_nodes_expression hObjects hAmount fun word hMem => hLexemes word (by simp [hMem])
  | .quantified _ _ _ hBody, hLexemes, start => by
      rw [Condition.bodyNodes, Condition.nodes]
      exact List.forall_mem_cons.mpr ⟨⟨nofun, nofun, fun _ => trivial⟩,
        coversNode_of_mem_bodyNodes hObjects hBody fun word hMem => hLexemes word (by simp [hMem])⟩

theorem coversNode_of_mem_partNodes (hObjects : ∀ name ∈ objects, IsName name) {scope : Scope}
    {words : List String} {parts : List Condition} :
    Condition.DenoteParts scope words parts → (∀ word ∈ words, Token.IsLexeme word) → ∀ {start : Nat},
      ∀ node ∈ (Condition.partNodes objects start parts).2, (writable True).CoversNode node
  | .nil, _, start => fun _ hMem => absurd hMem List.not_mem_nil
  | @Condition.DenoteParts.cons _ _ _ none _ _ hParts, hLexemes, start =>
      coversNode_of_mem_partNodes hObjects hParts fun word hMem => hLexemes word (List.mem_append_right _ hMem)
  | @Condition.DenoteParts.cons _ _ _ (some part) _ hPart hParts, hLexemes, start => by
      rw [Option.toList, List.singleton_append, Condition.partNodes]
      exact List.forall_mem_append.mpr
        ⟨coversNode_of_mem_bodyNodes hObjects hPart fun word hMem => hLexemes word (List.mem_append_left _ hMem),
          coversNode_of_mem_partNodes hObjects hParts fun word hMem => hLexemes word (List.mem_append_right _ hMem)⟩

end

/-- A tree that was read names only what a document can state. -/
theorem covers_of_compiled {tree : Tree} (hTree : tree.Compiled) : (writable True).Covers tree := by
  obtain ⟨hText, hObjects⟩ := hTree
  next condition objects =>
  have hDenotes := Condition.ofText_eq_ok_iff.mp hText
  have hBlock : ∀ node ∈ (Condition.bodyNodes objects 0 condition).2, (writable True).CoversNode node :=
    coversNode_of_mem_bodyNodes hObjects hDenotes fun word hMem => Token.isLexeme_of_mem_ofText hMem
  cases condition with
  | none => exact hBlock
  | some condition => exact hBlock

end Vocabulary
end PlanLogic
