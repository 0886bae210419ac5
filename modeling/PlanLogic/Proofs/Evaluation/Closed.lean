import PlanLogic.Proofs.Compilation.Environments
import PlanLogic.Proofs.Evaluation.Accesses
import PlanLogic.Proofs.Printing.RoundTrip
import PlanLogic.Proofs.Problems.Simulation

/-!
# Closed conditions

A condition all of whose free variables are replaced by objects still has placeholders in its tree: those of the
variables of its quantifiers.  A quantifier replaces its own before its body is evaluated, so in the part of the
tree that evaluation has come to, every variable that the scope has there is called by an object.  Therefore
evaluation asks about facts and heads of objects only, and changes no others.
-/

namespace PlanLogic

open Outline

/-- A tree that was read from a text, with an object for each variable of the scope and perhaps for some variables
of quantifiers. -/
inductive Tree.Closed (given : List String) : Tree → Prop
  | ofText {text : String} {scope : Scope} {condition : Option Condition} {objects : List String}
      (hText : Condition.ofText text scope = .ok condition) (hLength : scope.size ≤ objects.length)
      (hObjects : ∀ name ∈ objects, IsObject given name) : Closed given (Tree.ofCondition condition objects)

/-! ## Names of terms -/

/-- Every variable of a scope is called by an object, and words for objects are called by objects. -/
structure ObjectNames (given : List String) (size : Nat) (names : Term → String) : Prop where
  slot : ∀ {slot : Nat}, slot < size → IsObject given (names (.slot slot))
  object : ∀ {word : String}, IsObject given word → IsObject given (names (.object word))

variable {given : List String}

theorem isObject_of_isWord {text : String} (hLexeme : Token.IsLexeme text) (hWord : IsWord text) :
    IsObject given text := by
  have hSymbol := isSymbol_of_isWord hLexeme hWord
  obtain ⟨c, cs, hText⟩ := List.exists_cons_of_ne_nil hSymbol.nonempty
  have hVariable := hWord.noVariable
  rw [isVariable, hText] at hVariable
  refine ⟨?_, .inl (.of_isSymbol hSymbol)⟩
  rw [isGround, hText]
  simpa using hVariable

theorem objectNames_lowered {size : Nat} {objects : List String} (hLength : size ≤ objects.length)
    (hObjects : ∀ name ∈ objects, IsObject given name) : ObjectNames given size (Term.lowered objects) where
  slot {slot} hSlot := by
    have hFound := List.getElem?_eq_getElem (Nat.lt_of_lt_of_le hSlot hLength)
    rw [Term.lowered, slotName, hFound]
    exact hObjects _ (List.mem_of_getElem? hFound)
  object hWord := hWord

namespace ObjectNames

variable {scope : Scope} {names : Term → String} (hNames : ObjectNames given scope.size names)

include hNames

/-- Arguments of a fact or a head stand for objects. -/
theorem isGround_of_argumentsOf {words : List String} {args : List Term}
    (hArgs : ArgumentsOf scope words args) (hLexemes : ∀ word ∈ words, Token.IsLexeme word) :
    ∀ arg ∈ args.map names, IsObject given arg := by
  induction hArgs with
  | nil => exact fun _ hMem => absurd hMem List.not_mem_nil
  | cons hArg _ ih =>
      have hLater := ih fun word hMem => hLexemes word (List.mem_cons_of_mem _ hMem)
      rw [List.map_cons]
      refine List.forall_mem_cons.mpr ⟨?_, hLater⟩
      cases hArg with
      | slot _ hSlot => exact hNames.slot (lt_size_of_slotOf? hSlot)
      | object hWord => exact hNames.object (isObject_of_isWord (hLexemes _ List.mem_cons_self) hWord)

/-- Objects for the variables of a quantifier. -/
theorem bind {count : Nat} {chosen : List String} (hLength : count = chosen.length)
    (hChosen : ∀ object ∈ chosen, IsObject given object) :
    ObjectNames given (scope.size + count) (Naming.renaming.bind names (List.range' scope.size count) chosen) := by
  have hEntries : ∀ entry ∈ ((List.range' scope.size count).map fun slot => names (.slot slot)).zip chosen,
      IsObject given entry.2 :=
    fun entry hEntry => hChosen _ (List.of_mem_zip hEntry).2
  have hKeys : (((List.range' scope.size count).map fun slot => names (.slot slot)).zip chosen).map Prod.fst =
      (List.range' scope.size count).map fun slot => names (.slot slot) :=
    List.map_fst_zip (by rw [List.length_map, List.length_range', hLength])
  refine ⟨fun {slot} hSlot => ?_, fun hWord => Renaming.apply_induction hEntries (hNames.object hWord)⟩
  by_cases hOuter : slot < scope.size
  · exact Renaming.apply_induction hEntries (hNames.slot hOuter)
  · -- The name of a slot of the quantifier is replaced, if not by its own object then by another one.
    have hSlotMem : slot ∈ List.range' scope.size count := List.mem_range'_1.mpr ⟨by omega, hSlot⟩
    have hKey := List.mem_map_of_mem (f := fun slot => names (.slot slot)) hSlotMem
    rw [← hKeys] at hKey
    obtain ⟨entry, hEntry, hSame⟩ := Renaming.apply_mem hKey
    show IsObject given (Renaming.apply _ (names (.slot slot)))
    rw [hSame]
    exact hEntries entry hEntry

end ObjectNames

/-! ## Settled places -/

namespace Place

/-- A place that evaluation of a closed condition comes to: there is the block of a condition or an expression, and
every variable that the scope has there is called by an object. -/
inductive Settled (given : List String) : Place → Prop
  | condition {depth start : Nat} {tree : Tree} {scope : Scope} {words : List String} {condition : Condition}
      {names : Term → String} (hDenotes : Condition.Denotes scope words (some condition))
      (hLexemes : ∀ word ∈ words, Token.IsLexeme word) (hNames : ObjectNames given scope.size names)
      (hBlock : tree.HasBlock start ((condition.outline names).layout start)) : Settled given ⟨depth, tree, start⟩
  | expression {depth start : Nat} {tree : Tree} {scope : Scope} {words : List String} {expression : Expression}
      {names : Term → String} (hDenotes : DenotesExpression scope words expression)
      (hLexemes : ∀ word ∈ words, Token.IsLexeme word) (hNames : ObjectNames given scope.size names)
      (hBlock : tree.HasBlock start ((expression.outline names).layout start)) : Settled given ⟨depth, tree, start⟩

/-- The parts of a connective. -/
theorem settled_parts {scope : Scope} {names : Term → String} (hNames : ObjectNames given scope.size names)
    {tree : Tree} {depth : Nat} {words : List String} {parts : List Condition} :
    Condition.DenoteParts scope words parts → (∀ word ∈ words, Token.IsLexeme word) → ∀ {start : Nat},
      tree.HasBlock start (layouts start (Condition.partOutlines names parts)) →
        ∀ child ∈ positions start (Condition.partOutlines names parts), Settled given ⟨depth, tree, child⟩
  | .nil, _, _, _ => fun _ hMem => absurd hMem List.not_mem_nil
  | @Condition.DenoteParts.cons _ _ _ none _ _ hParts, hLexemes, start, hBlocks =>
      settled_parts hNames hParts (fun word hMem => hLexemes word (List.mem_append_right _ hMem)) hBlocks
  | @Condition.DenoteParts.cons _ _ _ (some part) _ hPart hParts, hLexemes, start, hBlocks => by
      rw [Option.toList, List.singleton_append, Condition.partOutlines, layouts, Tree.hasBlock_append,
        length_layout] at hBlocks
      rw [Option.toList, List.singleton_append, Condition.partOutlines, positions]
      refine List.forall_mem_cons.mpr ⟨?_, ?_⟩
      · exact .condition hPart (fun word hMem => hLexemes word (List.mem_append_left _ hMem)) hNames hBlocks.1
      · exact settled_parts hNames hParts (fun word hMem => hLexemes word (List.mem_append_right _ hMem)) hBlocks.2

/-- Two operands. -/
theorem settled_operands {scope : Scope} {names : Term → String} (hNames : ObjectNames given scope.size names)
    {tree : Tree} {depth start : Nat} {leftWords rightWords : List String} {left right : Expression}
    (hLeft : DenotesExpression scope leftWords left) (hRight : DenotesExpression scope rightWords right)
    (hLeftLexemes : ∀ word ∈ leftWords, Token.IsLexeme word)
    (hRightLexemes : ∀ word ∈ rightWords, Token.IsLexeme word)
    (hBlocks : tree.HasBlock start (layouts start [left.outline names, right.outline names])) :
    ∀ child ∈ positions start [left.outline names, right.outline names], Settled given ⟨depth, tree, child⟩ := by
  rw [layouts, layouts, layouts, List.append_nil, Tree.hasBlock_append, length_layout] at hBlocks
  refine List.forall_mem_cons.mpr ⟨?_, List.forall_mem_singleton.mpr ?_⟩
  · exact .expression hLeft hLeftLexemes hNames hBlocks.1
  · exact .expression hRight hRightLexemes hNames hBlocks.2

/-- The node of a predicate or a function with ground arguments. -/
theorem coversNode_of_argumentsOf {scope : Scope} {names : Term → String} (hNames : ObjectNames given scope.size names)
    {name : String} {words : List String} {args : List Term} (hName : Token.IsSymbol name)
    (hArgs : ArgumentsOf scope words args) (hLexemes : ∀ word ∈ words, Token.IsLexeme word) {kind : NodeKind}
    (hKind : kind ≠ .quantifier) :
    (Vocabulary.ground given).CoversNode
      { kind := kind, name := name, parameters := Atom.namedParameters names ⟨name, args⟩ } := by
  have hGround := hNames.isGround_of_argumentsOf hArgs hLexemes
  have hFact := Evaluation.fact_namedParameters names ⟨name, args⟩ kind
  refine ⟨fun _ => ?_, fun _ => ?_, fun hQuantifier => absurd hQuantifier hKind⟩
  · rw [hFact]
    exact hGround
  · rw [hFact]
    exact ⟨IsName.of_isSymbol hName, hGround⟩

variable {heads : List Fact} {commit : Bool} {depth start : Nat} {tree : Tree}

/-- A node that is no quantifier, with settled children. -/
theorem unfolds_of_hasBlock {node : Node} {children : List Outline}
    (hBlock : tree.HasBlock start ((Outline.mk node children).layout start)) (hKind : node.kind ≠ .quantifier)
    (hCovers : (Vocabulary.ground given).CoversNode node)
    (hChildren : tree.HasBlock (start + 1) (layouts (start + 1) children) →
      ∀ child ∈ positions (start + 1) children, Settled given ⟨depth, tree, child⟩) :
    (Watched.shadowing given heads commit).Unfolds (fun here there => here = there ∧ here.Settled given)
      ⟨depth + 1, tree, start⟩ ⟨depth + 1, tree, start⟩ := by
  rw [layout, Tree.hasBlock_cons] at hBlock
  refine .node (Nat.succ_ne_zero depth) (Nat.succ_ne_zero depth) (Watched.shadowing given heads commit).report hBlock.1
    hBlock.1 ⟨hCovers.fact, hCovers.head, hCovers.quantifies⟩ (fun _ => ?_) fun hQuantifier => absurd hQuantifier hKind
  exact List.forall₂_same.mpr fun child hMem => ⟨rfl, hChildren hBlock.2 child hMem⟩

/-- The node of a quantifier, with a body that is settled once its variables are replaced. -/
theorem unfolds_of_hasBlock_quantifier {names : Term → String} {bindings : List Binding} {body : Condition}
    {size : Nat}
    (hBlock : tree.HasBlock start
      ((Condition.outline names (.quantified bindings (List.range' size bindings.length) (some body))).layout start))
    (hBody : ∀ chosen : List String, bindings.length = chosen.length → (∀ object ∈ chosen, IsObject given object) →
      ∀ grounded : Tree, grounded.HasBlock (start + 1)
        ((body.outline (Naming.renaming.bind names (List.range' size bindings.length) chosen)).layout (start + 1)) →
          Settled given ⟨depth, grounded, ↑(start + 1)⟩) :
    (Watched.shadowing given heads commit).Unfolds (fun here there => here = there ∧ here.Settled given)
      ⟨depth + 1, tree, start⟩ ⟨depth + 1, tree, start⟩ := by
  have hGrounded := Evaluation.hasBlock_grounded hBlock
  have hSlots : (List.range' size bindings.length).length = bindings.length := List.length_range'
  rw [Condition.outline, Condition.bodyOutlines, layout, Tree.hasBlock_cons] at hBlock
  have hNames := Evaluation.parameterNames_quantifierNode names hSlots
    (positions (start + 1) [body.outline names])
  refine .node (Nat.succ_ne_zero depth) (Nat.succ_ne_zero depth) (Watched.shadowing given heads commit).report hBlock.1
    hBlock.1 ⟨nofun, nofun, fun _ => trivial⟩ (fun hKind => absurd rfl hKind) fun _ => ?_
  refine List.forall₂_same.mpr fun child hMem chosen hLength hObjects => ⟨rfl, ?_⟩
  obtain rfl := List.mem_singleton.mp hMem
  have hCount : bindings.length = chosen.length := by
    rw [← hLength, ← List.length_map (f := Parameter.name)]
    exact hSlots.symm.trans ((congrArg List.length hNames).trans (List.length_map _)).symm
  have hSettled := hBody chosen hCount hObjects _ (hGrounded chosen)
  rw [← hNames] at hSettled
  exact hSettled

theorem unfolds_of_settled_expression {scope : Scope} {words : List String} {expression : Expression}
    {names : Term → String} (hDenotes : DenotesExpression scope words expression)
    (hLexemes : ∀ word ∈ words, Token.IsLexeme word) (hNames : ObjectNames given scope.size names)
    (hBlock : tree.HasBlock start ((expression.outline names).layout start)) :
    (Watched.shadowing given heads commit).Unfolds (fun here there => here = there ∧ here.Settled given)
      ⟨depth + 1, tree, start⟩ ⟨depth + 1, tree, start⟩ := by
  cases hDenotes with
  | number _ _ =>
      exact unfolds_of_hasBlock hBlock nofun ⟨nofun, nofun, nofun⟩ fun _ _ hMem => absurd hMem List.not_mem_nil
  | slot _ _ =>
      exact unfolds_of_hasBlock hBlock nofun ⟨nofun, nofun, nofun⟩ fun _ _ hMem => absurd hMem List.not_mem_nil
  | constant _ _ =>
      exact unfolds_of_hasBlock hBlock nofun ⟨nofun, nofun, nofun⟩ fun _ _ hMem => absurd hMem List.not_mem_nil
  | function hName _ hArgs =>
      have hSymbol := isSymbol_of_isWord (hLexemes _ (by simp)) hName
      have hCovers := coversNode_of_argumentsOf hNames hSymbol hArgs (fun word hMem => hLexemes word (by simp [hMem]))
        (nofun : NodeKind.function ≠ .quantifier)
      exact unfolds_of_hasBlock hBlock nofun hCovers fun _ _ hMem => absurd hMem List.not_mem_nil
  | arithmetic op hLeft hRight =>
      refine unfolds_of_hasBlock hBlock nofun ⟨nofun, nofun, nofun⟩ fun hBlocks => ?_
      exact settled_operands hNames hLeft hRight (fun word hMem => hLexemes word (by simp [hMem]))
        (fun word hMem => hLexemes word (by simp [hMem])) hBlocks

/-- Evaluation goes on from a settled place to settled places. -/
theorem unfolds_of_settled {here there : Place} (hPlaces : here = there ∧ here.Settled given) :
    (Watched.shadowing given heads commit).Unfolds (fun here there => here = there ∧ here.Settled given)
      here there := by
  obtain ⟨rfl, hSettled⟩ := hPlaces
  by_cases hDepth : here.depth = 0
  · exact .exhausted hDepth hDepth
  obtain ⟨depth, tree, reference⟩ := here
  obtain ⟨depth, rfl⟩ := Nat.exists_eq_succ_of_ne_zero hDepth
  cases hSettled with
  | expression hDenotes hLexemes hNames hBlock =>
      exact unfolds_of_settled_expression hDenotes hLexemes hNames hBlock
  | condition hDenotes hLexemes hNames hBlock =>
      cases hDenotes with
      | conjunction _ hParts =>
          refine unfolds_of_hasBlock hBlock nofun ⟨nofun, nofun, nofun⟩ fun hBlocks => ?_
          exact settled_parts hNames hParts (fun word hMem => hLexemes word (by simp [hMem])) hBlocks
      | disjunction _ hParts =>
          refine unfolds_of_hasBlock hBlock nofun ⟨nofun, nofun, nofun⟩ fun hBlocks => ?_
          exact settled_parts hNames hParts (fun word hMem => hLexemes word (by simp [hMem])) hBlocks
      | negation _ hPart =>
          refine unfolds_of_hasBlock hBlock nofun ⟨nofun, nofun, nofun⟩ fun hBlocks => ?_
          rw [layouts, layouts, List.append_nil] at hBlocks
          exact List.forall_mem_singleton.mpr
            (.condition hPart (fun word hMem => hLexemes word (by simp [hMem])) hNames hBlocks)
      | atom _ hWord hArgs =>
          have hSymbol := isSymbol_of_isWord (hLexemes _ (by simp)) hWord
          have hCovers := coversNode_of_argumentsOf hNames hSymbol hArgs
            (fun word hMem => hLexemes word (by simp [hMem])) (nofun : NodeKind.predicate ≠ .quantifier)
          exact unfolds_of_hasBlock hBlock nofun hCovers fun _ _ hMem => absurd hMem List.not_mem_nil
      | comparison op _ hLeft hRight =>
          refine unfolds_of_hasBlock hBlock nofun ⟨nofun, nofun, nofun⟩ fun hBlocks => ?_
          exact settled_operands hNames hLeft hRight (fun word hMem => hLexemes word (by simp [hMem]))
            (fun word hMem => hLexemes word (by simp [hMem])) hBlocks
      | update op _ hTarget hAmount =>
          refine unfolds_of_hasBlock hBlock nofun ⟨nofun, nofun, nofun⟩ fun hBlocks => ?_
          exact settled_operands hNames hTarget hAmount (fun word hMem => hLexemes word (by simp [hMem]))
            (fun word hMem => hLexemes word (by simp [hMem])) hBlocks
      | @quantified _ _ _ _ _ body _ _ _ hBody =>
          cases body with
          | none =>
              rw [Condition.outline, Condition.bodyOutlines, layout, Tree.hasBlock_cons] at hBlock
              exact .node hDepth hDepth (Watched.shadowing given heads commit).report hBlock.1 hBlock.1
                ⟨nofun, nofun, fun _ => trivial⟩ (fun hKind => absurd rfl hKind) fun _ => .nil
          | some body =>
              refine unfolds_of_hasBlock_quantifier hBlock fun chosen hLength hObjects grounded hGrounded => ?_
              have hInner := hNames.bind hLength hObjects
              rw [← Scope.size_extend] at hInner
              exact .condition hBody (fun word hMem => hLexemes word (by simp [hMem])) hInner hGrounded

end Place

/-! ## Sequences of evaluations -/

namespace Snapshot

/-- The replies of a snapshot when trees are evaluated in order, each to check or to make it true, with the accesses
that each evaluation makes. -/
def watchedReplies (state : Snapshot) : List (Bool × Tree) → List ((Outcome × Observed Snapshot) × List Access)
  | [] => []
  | (commit, tree) :: steps =>
    let reply := state.watched commit tree
    reply :: reply.1.2.state.watchedReplies steps

namespace IsGround

variable {heads : List Fact} {state : Snapshot} {tree : Tree}

/-- One evaluation of a closed tree. -/
theorem watched (hState : state.IsGround given heads) (hTree : tree.Closed given) (commit : Bool) :
    (state.watched commit tree).1 = state.evaluated commit tree ∧
      (∀ access ∈ (state.watched commit tree).2, access.IsGround given) ∧
        (state.evaluated commit tree).2.state.IsGround given heads := by
  have hAlike : (Watched.shadowing given heads commit).Alike (evaluate commit tree 0 false)
      (evaluate commit tree 0 false) := by
    obtain ⟨hText, hLength, hObjects⟩ := hTree
    next condition objects =>
    cases condition with
    | none => exact (Watched.shadowing given heads commit).evaluate (fun _ hMem => absurd hMem List.not_mem_nil) 0 false
    | some condition =>
        refine Coupling.evaluate_of_linked Place.unfolds_of_settled rfl ⟨rfl, ?_⟩ false
        exact .condition (Condition.ofText_eq_ok_iff.mp hText) (fun _ hMem => Token.isLexeme_of_mem_ofText hMem)
          (objectNames_lowered hLength hObjects) (Tree.hasBlock_ofCondition condition objects)
  obtain ⟨more, hOther, hMore, -, hFinal⟩ := hAlike (.start state) [] hState
  have hWatched : state.watched commit tree = (state.evaluated commit tree, more) := by
    rw [Snapshot.watched, hOther]
    rfl
  rw [hWatched]
  exact ⟨rfl, hMore, hFinal⟩

/-- Any number of evaluations of closed trees. -/
theorem watchedReplies (hState : state.IsGround given heads) {steps : List (Bool × Tree)}
    (hSteps : ∀ step ∈ steps, step.2.Closed given) :
    (state.watchedReplies steps).map Prod.fst = state.replies steps ∧
      ∀ reply ∈ state.watchedReplies steps,
        (∀ access ∈ reply.2, access.IsGround given) ∧ reply.1.2.state.IsGround given heads := by
  induction steps generalizing state with
  | nil => exact ⟨rfl, fun _ hMem => absurd hMem List.not_mem_nil⟩
  | cons step steps ih =>
      obtain ⟨commit, tree⟩ := step
      obtain ⟨hTree, hLater⟩ := List.forall_mem_cons.mp hSteps
      obtain ⟨hSame, hAccesses, hNext⟩ := hState.watched hTree commit
      rw [← hSame] at hNext
      obtain ⟨hReplies, hRest⟩ := ih hNext hLater
      refine ⟨?_, List.forall_mem_cons.mpr ⟨⟨hAccesses, hNext⟩, hRest⟩⟩
      rw [Snapshot.watchedReplies, Snapshot.replies, List.map_cons, hReplies, hSame]

end IsGround

/-- Conditions and effects that are closed are evaluated in order, against a snapshot whose facts are about objects:
every fact that is asked for, added or removed and every head that is read or written is about objects, and so are
all facts of every snapshot on the way, in which the same heads have numbers as at the start.  The given names may be
any that hold those in the facts and those that were put in for variables. -/
theorem isGround_watchedReplies {state : Snapshot} (hFacts : ∀ fact ∈ state.facts, fact.IsGround given)
    {steps : List (Bool × Tree)} (hSteps : ∀ step ∈ steps, step.2.Closed given) :
    (state.watchedReplies steps).map Prod.fst = state.replies steps ∧
      ∀ reply ∈ state.watchedReplies steps,
        (∀ access ∈ reply.2, access.IsGround given) ∧ reply.1.2.state.IsGround given state.heads :=
  IsGround.watchedReplies ⟨hFacts, rfl⟩ hSteps

/-- Here an object is put in even for the variable of the quantifier, a name has a blank in it, and the effect is made
true before it is checked. -/
theorem isGround_watchedReplies_covering :
    let given := ["a", "b c", "d"]
    let state : Snapshot := ⟨[⟨"p", ["a"]⟩], []⟩
    let tree := Tree.ofCondition (some (.quantified [⟨"?y", "object"⟩] [1]
      (some (.atom ⟨"q", [.slot 0, .slot 1]⟩)))) ["b c", "d"]
    (∀ fact ∈ state.facts, fact.IsGround given) ∧ (∀ step ∈ [(true, tree), (false, tree)], step.2.Closed given) ∧
      (state.watchedReplies [(true, tree), (false, tree)]).map Prod.fst = state.replies [(true, tree), (false, tree)] ∧
        ∀ reply ∈ state.watchedReplies [(true, tree), (false, tree)],
          (∀ access ∈ reply.2, access.IsGround given) ∧ reply.1.2.state.IsGround given state.heads := by
  intro given state tree
  have hGiven : ∀ name ∈ given, IsObject given name := fun name hMem => by
    have hGround : ∀ name ∈ given, isGround name = true := by decide
    exact ⟨hGround name hMem, .inr hMem⟩
  have hWords : (Token.ofText "(exists (?y) (q ?x ?y))").map Token.text =
      ["(", "exists", "(", "?y", ")", "(", "q", "?x", "?y", ")", ")"] := by
    decide +kernel
  have hArgs : ArgumentsOf (Scope.extend ⟨[⟨"?x", "object"⟩]⟩ [⟨"?y", "object"⟩]) ["?x", "?y"] [.slot 0, .slot 1] :=
    .cons (.slot (by decide) (by decide)) (.cons (.slot (by decide) (by decide)) .nil)
  have hBody : Condition.Denotes _ ["(", "q", "?x", "?y", ")"] _ :=
    .atom (by decide +kernel) ⟨by decide, by decide⟩ hArgs
  have hDeclares : Declares ["?y"] [⟨"?y", "object"⟩] := .untyped (by decide)
  have hText : Condition.ofText "(exists (?y) (q ?x ?y))" ⟨[⟨"?x", "object"⟩]⟩ =
      .ok (some (.quantified [⟨"?y", "object"⟩] [1] (some (.atom ⟨"q", [.slot 0, .slot 1]⟩)))) := by
    rw [Condition.ofText_eq_ok_iff, hWords]
    exact .quantified (by decide +kernel) hDeclares (by decide) hBody
  have hTree : tree.Closed given := .ofText hText (by decide) fun name hMem => hGiven name (List.mem_cons_of_mem _ hMem)
  have hFacts : ∀ fact ∈ state.facts, fact.IsGround given :=
    List.forall_mem_singleton.mpr (List.forall_mem_singleton.mpr (hGiven "a" (by decide)))
  have hSteps : ∀ step ∈ [(true, tree), (false, tree)], step.2.Closed given :=
    List.forall_mem_cons.mpr ⟨hTree, List.forall_mem_singleton.mpr hTree⟩
  exact ⟨hFacts, hSteps, isGround_watchedReplies hFacts hSteps⟩

end Snapshot
end PlanLogic
