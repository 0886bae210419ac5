import PlanLogic.Proofs.Compilation.Interpreter
import PlanLogic.Proofs.Compilation.Layout
import PlanLogic.Proofs.Compilation.Scoping

/-!
# Evaluation of a block

Evaluating a block of a tree shows what interpreting its condition shows, if the interpreter knows the terms
by the names that they have in the block.  A quantifier renames the block for each choice of objects, and
the interpreter renames its names in the same way; so the same statement holds for the block of the body in
the renamed tree, and nothing has to be known about the names.
-/

namespace PlanLogic

/-- The names of the terms in a tree; a quantifier gives new names to whatever is called like its slots. -/
def Naming.renaming : Naming (Term → String) where
  name names term := names term
  bind names slots chosen := Renaming.apply ((slots.map fun slot => names (.slot slot)).zip chosen) ∘ names

/-! ## What a run shows -/

/-- The answer of a run and the snapshot after it, without the diagnostics. -/
def Snapshot.Run.result (run : Snapshot.Run α) (observed : Observed Snapshot) : α × Snapshot :=
  ((run observed).1, (run observed).2.state)

/-- A run shows what a step shows: the same answer, and the same snapshot afterwards. -/
def Shows (run : Snapshot.Run α) (step : Interpreter.Step α) : Prop :=
  ∀ observed, Snapshot.Run.result run observed = step observed.state

namespace Shows

theorem pure (answer : α) : Shows (pure answer) (pure answer) :=
  fun _ => rfl

theorem bind {run : Snapshot.Run α} {step : Interpreter.Step α} {next : α → Snapshot.Run β}
    {nextStep : α → Interpreter.Step β} (hRun : Shows run step)
    (hNext : ∀ answer, Shows (next answer) (nextStep answer)) : Shows (run >>= next) (step >>= nextStep) := by
  intro observed
  show Snapshot.Run.result (next (run observed).1) (run observed).2 =
    nextStep (step observed.state).1 (step observed.state).2
  rw [← hRun observed]
  exact hNext (run observed).1 (run observed).2

theorem ask (question : Snapshot → α) :
    Shows (Snapshot.Run.ask question) fun state => (question state, state) :=
  fun _ => rfl

theorem malformed (tree : Tree) (reference : Int) :
    Shows (Evaluation.malformed tree reference) (Pure.pure .failed) :=
  fun _ => rfl

end Shows

/-! ## Joining the outcomes of parts -/

namespace Outcome

theorem foldl_all (outcomes : List Outcome) (success truth : Bool) :
    outcomes.foldl
        (fun sofar part => Outcome.mk (sofar.success && part.success) (sofar.truth && part.truth) 0)
        (Outcome.mk success truth 0) =
      Outcome.mk (success && outcomes.all Outcome.success) (truth && outcomes.all Outcome.truth) 0 := by
  induction outcomes generalizing success truth with
  | nil => rw [List.foldl_nil, List.all_nil, List.all_nil, Bool.and_true, Bool.and_true]
  | cons part outcomes ih =>
      rw [List.foldl_cons, ih, List.all_cons, List.all_cons, Bool.and_assoc, Bool.and_assoc]

theorem foldl_any (outcomes : List Outcome) (success truth : Bool) :
    outcomes.foldl
        (fun sofar part => Outcome.mk (sofar.success && part.success) (sofar.truth || part.truth) 0)
        (Outcome.mk success truth 0) =
      Outcome.mk (success && outcomes.all Outcome.success) (truth || outcomes.any Outcome.truth) 0 := by
  induction outcomes generalizing success truth with
  | nil => rw [List.foldl_nil, List.all_nil, List.any_nil, Bool.and_true, Bool.or_false]
  | cons part outcomes ih =>
      rw [List.foldl_cons, ih, List.all_cons, List.any_cons, Bool.and_assoc, Bool.or_assoc]

end Outcome

namespace Evaluation

variable {m : Type → Type} [Monad m] [LawfulMonad m]

theorem foldlM_eq_mapM (evaluate : Int → m Outcome) (join : Outcome → Outcome → Outcome) (children : List Int)
    (sofar : Outcome) :
    children.foldlM (fun sofar child => do return join sofar (← evaluate child)) sofar = do
      return (← children.mapM evaluate).foldl join sofar := by
  induction children generalizing sofar with
  | nil => rw [List.foldlM_nil, List.mapM_nil, pure_bind, List.foldl_nil]
  | cons child children ih =>
      simp only [List.foldlM_cons, List.mapM_cons, bind_assoc, pure_bind, ih, List.foldl_cons]

/-- All parts are evaluated before their outcomes are joined. -/
theorem all_eq_mapM (evaluate : Int → m Outcome) (children : List Int) :
    all evaluate children = do
      let outcomes ← children.mapM evaluate
      return ⟨outcomes.all Outcome.success, outcomes.all Outcome.truth, 0⟩ := by
  rw [all, foldlM_eq_mapM]
  simp only [Outcome.foldl_all, Bool.true_and]

theorem any_eq_mapM (evaluate : Int → m Outcome) (children : List Int) :
    any evaluate children = do
      let outcomes ← children.mapM evaluate
      return ⟨outcomes.all Outcome.success, outcomes.any Outcome.truth, 0⟩ := by
  rw [any, foldlM_eq_mapM]
  simp only [Outcome.foldl_any, Bool.true_and, Bool.false_or]

end Evaluation

/-! ## Expressions -/

theorem Shows.operands (evaluate : Int → Snapshot.Run Outcome) (left right : Int)
    {next : Float → Float → Snapshot.Run Outcome} {leftOutcome rightOutcome : Snapshot → Outcome}
    {nextOutcome : Float → Float → Interpreter.Step Outcome}
    (hLeft : Shows (evaluate left) fun state => (leftOutcome state, state))
    (hRight : Shows (evaluate right) fun state => (rightOutcome state, state))
    (hNext : ∀ leftValue rightValue, Shows (next leftValue rightValue) (nextOutcome leftValue rightValue)) :
    Shows (Evaluation.operands evaluate left right next) fun state =>
      if (leftOutcome state).success && (rightOutcome state).success then
        nextOutcome (leftOutcome state).value (rightOutcome state).value state
      else
        (.failed, state) := by
  have hBoth : Shows (Evaluation.operands evaluate left right next) _ :=
    hLeft.bind fun leftFound => hRight.bind fun rightFound =>
      show Shows _ (if leftFound.success && rightFound.success then
          nextOutcome leftFound.value rightFound.value
        else
          Pure.pure .failed) by
        split
        · exact hNext _ _
        · exact Shows.pure _
  intro observed
  refine (hBoth observed).trans ?_
  show (if (leftOutcome observed.state).success && (rightOutcome observed.state).success then
      nextOutcome (leftOutcome observed.state).value (rightOutcome observed.state).value
    else
      Pure.pure .failed : Interpreter.Step Outcome) observed.state = ite _ _ _
  by_cases hSuccess : ((leftOutcome observed.state).success && (rightOutcome observed.state).success) = true
  · rw [if_pos hSuccess, if_pos hSuccess]
  · rw [if_neg hSuccess, if_neg hSuccess]
    rfl

theorem Arithmetic.notComparison (op : Arithmetic) : Comparison.ofSymbol? op.symbol = none := by
  cases op <;> rfl

namespace Evaluation

open Outline Interpreter PlanLogic.Tree

/-- The first node of the block of an expression. -/
theorem node_outline {tree : Tree} {names : Term → String} {expression : Expression} {start : Nat}
    (hBlock : tree.HasBlock start ((expression.outline names).layout start)) :
    ∃ node, tree.node? start = some node ∧ node.symbol? = symbol? Naming.renaming names expression ∧
      (node.kind = .number ↔ isNumber expression = true) := by
  cases expression <;> rw [Expression.outline, layout, hasBlock_cons] at hBlock <;>
    exact ⟨_, hBlock.1, rfl, by simp [isNumber]⟩

theorem fact_namedParameters (names : Term → String) (head : Atom) (kind : NodeKind) :
    Node.fact { kind := kind, name := head.name, parameters := head.namedParameters names } =
      Naming.renaming.fact names head := by
  rw [Node.fact, Node.parameterNames, Atom.namedParameters, List.map_map]
  rfl

theorem shows_function (key : String) :
    Shows (function key) fun state => (((state.value? key).map Outcome.computed).getD .failed, state) := by
  have hFound : Shows (function key) _ :=
    (Shows.ask fun state => state.value? key).bind fun found =>
      show Shows _ (Pure.pure ((found.map Outcome.computed).getD .failed)) by
        cases found with
        | none => exact Shows.pure _
        | some found => exact Shows.pure _
  exact hFound

theorem shows_operation_arithmetic (tree : Tree) (reference : Int) (negated : Bool) (op : Arithmetic)
    (left right : Int) (leftValue rightValue : Float) :
    Shows (operation tree reference negated op.symbol left right leftValue rightValue)
      (Pure.pure (((op.compute? leftValue rightValue).map Outcome.computed).getD .failed)) := by
  rw [operation, op.notComparison, Arithmetic.ofSymbol?_symbol]
  exact Shows.pure _

theorem shows_value (commit : Bool) (tree : Tree) (names : Term → String) (negated : Bool) :
    ∀ (expression : Expression) (depth start : Nat), (expression.outline names).size ≤ depth →
      tree.HasBlock start ((expression.outline names).layout start) →
        Shows (within commit depth tree start negated) fun state =>
          (value Naming.renaming names state expression, state)
  | expression, 0, start, hDepth, _ => absurd (expression.outline names).size_pos (by omega)
  | .number number, depth + 1, start, hDepth, hBlock => by
      rw [Expression.outline, layout, hasBlock_cons] at hBlock
      rw [within, hBlock.1]
      exact Shows.pure _
  | .variable slot, depth + 1, start, hDepth, hBlock => by
      rw [Expression.outline, layout, hasBlock_cons] at hBlock
      rw [within, hBlock.1]
      exact Shows.pure _
  | .constant word, depth + 1, start, hDepth, hBlock => by
      rw [Expression.outline, layout, hasBlock_cons] at hBlock
      rw [within, hBlock.1]
      exact Shows.pure _
  | .function head, depth + 1, start, hDepth, hBlock => by
      rw [Expression.outline, layout, hasBlock_cons] at hBlock
      rw [within, hBlock.1]
      show Shows (function (Node.fact
        { kind := .function, name := head.name, parameters := head.namedParameters names }).key) _
      rw [fact_namedParameters names head .function]
      exact shows_function _
  | .arithmetic op left right, depth + 1, start, hDepth, hBlock => by
      rw [Expression.outline, hasBlock_pair] at hBlock
      obtain ⟨hNode, hLeftBlock, hRightBlock⟩ := hBlock
      rw [Expression.outline, size_pair] at hDepth
      have hLeft := shows_value commit tree names negated left depth (start + 1) (by omega) hLeftBlock
      have hRight := shows_value commit tree names negated right depth _ (by omega) hRightBlock
      have hBoth := Shows.operands (fun child => within commit depth tree child negated) _ _ hLeft hRight
        (shows_operation_arithmetic tree start negated op (start + 1 : Nat)
          (start + 1 + (left.outline names).size : Nat))
      rw [within, hNode]
      intro observed
      refine (hBoth observed).trans ?_
      show _ = (value _ _ _ _, _)
      rw [value]
      dsimp only
      split
      · rfl
      · rfl

/-! ## Comparisons and updates -/

theorem operandsEqual?_eq {names : Term → String} {left right : Expression} {leftNode rightNode : Node}
    (hLeft : leftNode.symbol? = symbol? Naming.renaming names left)
    (hRight : rightNode.symbol? = symbol? Naming.renaming names right)
    (hLeftNumber : leftNode.kind = .number ↔ isNumber left = true)
    (hRightNumber : rightNode.kind = .number ↔ isNumber right = true) (leftValue rightValue : Float) :
    operandsEqual? leftNode rightNode leftValue rightValue =
      equal? Naming.renaming names left right leftValue rightValue := by
  unfold operandsEqual? equal?
  rw [hLeft, hRight]
  cases symbol? Naming.renaming names left with
  | none => simp only [hLeftNumber, hRightNumber]
  | some leftName =>
      cases symbol? Naming.renaming names right with
      | none => simp only [hLeftNumber, hRightNumber]
      | some rightName => rfl

theorem shows_operation_comparison {tree : Tree} {names : Term → String} {left right : Expression}
    {leftStart rightStart : Nat} (hLeft : tree.HasBlock leftStart ((left.outline names).layout leftStart))
    (hRight : tree.HasBlock rightStart ((right.outline names).layout rightStart)) (reference : Int)
    (negated : Bool) (op : Comparison) (leftValue rightValue : Float) :
    Shows (operation tree reference negated op.symbol leftStart rightStart leftValue rightValue)
      (Pure.pure (match compare? Naming.renaming names op left right leftValue rightValue with
        | some truth => .judged (negated != truth)
        | none => .failed)) := by
  rw [operation, Comparison.ofSymbol?_symbol]
  by_cases hEqual : op = .equal
  · obtain ⟨leftNode, hLeftNode, hLeftSymbol, hLeftNumber⟩ := node_outline hLeft
    obtain ⟨rightNode, hRightNode, hRightSymbol, hRightNumber⟩ := node_outline hRight
    rw [hEqual, compare?, if_pos rfl, hLeftNode, hRightNode,
      ← operandsEqual?_eq hLeftSymbol hRightSymbol hLeftNumber hRightNumber leftValue rightValue]
    dsimp only
    cases operandsEqual? leftNode rightNode leftValue rightValue with
    | some equal => exact Shows.pure _
    | none => exact Shows.malformed _ _
  · rw [compare?, if_neg hEqual]
    cases op with
    | equal => exact absurd rfl hEqual
    | _ => exact Shows.pure _

theorem shows_comparison {tree : Tree} {names : Term → String} {left right : Expression}
    {leftStart rightStart : Nat} (hLeftBlock : tree.HasBlock leftStart ((left.outline names).layout leftStart))
    (hRightBlock : tree.HasBlock rightStart ((right.outline names).layout rightStart))
    {evaluate : Int → Snapshot.Run Outcome}
    (hLeft : Shows (evaluate leftStart) fun state => (value Naming.renaming names state left, state))
    (hRight : Shows (evaluate rightStart) fun state => (value Naming.renaming names state right, state))
    (reference : Int) (negated : Bool) (op : Comparison) :
    Shows (operands evaluate leftStart rightStart
        (operation tree reference negated op.symbol leftStart rightStart)) fun state =>
      (Interpreter.compare Naming.renaming names negated op left right state, state) := by
  have hBoth := Shows.operands evaluate _ _ hLeft hRight
    (shows_operation_comparison hLeftBlock hRightBlock reference negated op)
  intro observed
  refine (hBoth observed).trans ?_
  show _ = (Interpreter.compare _ _ _ _ _ _ _, _)
  rw [Interpreter.compare]
  dsimp only
  split
  · rfl
  · rfl

theorem shows_update (commit : Bool) {tree : Tree} {names : Term → String} {target : Atom} {start : Nat}
    (hTarget : tree.HasBlock start (((Expression.function target).outline names).layout start))
    (reference : Int)
    (op : Update) (old change : Float) :
    Shows (update commit tree reference op.symbol start old change) fun state =>
      match op.compute? old change with
      | none => (.failed, state)
      | some new =>
        if commit then
          (⟨state.assigns (Naming.renaming.fact names target), false, new⟩,
            state.write ⟨Naming.renaming.fact names target, new⟩)
        else
          (.computed new, state) := by
  rw [Expression.outline, layout, hasBlock_cons] at hTarget
  rw [update, Update.ofSymbol?_symbol]
  dsimp only
  cases op.compute? old change with
  | none => exact Shows.pure _
  | some new =>
      cases commit with
      | false => exact Shows.pure _
      | true =>
          show Shows (commitUpdate tree reference start new) _
          rw [commitUpdate, hTarget.1, ← fact_namedParameters names target .function]
          exact fun _ => rfl

/-! ## Conditions -/

theorem shows_predicate (commit negated : Bool) (fact : Fact) :
    Shows (predicate commit negated fact) (atom commit negated fact) := by
  cases commit with
  | false => exact fun _ => rfl
  | true =>
      cases negated with
      | false => exact fun _ => rfl
      | true => exact fun _ => rfl

theorem shows_firstTrue {attempt : α → Snapshot.Run Outcome} {attemptStep : α → Step Outcome}
    (hAttempt : ∀ alternative, Shows (attempt alternative) (attemptStep alternative))
    (alternatives : List α) :
    Shows (Evaluation.firstTrue attempt alternatives) (Interpreter.firstTrue attemptStep alternatives) := by
  induction alternatives with
  | nil => exact Shows.pure _
  | cons alternative rest ih =>
      rw [Evaluation.firstTrue, Interpreter.firstTrue]
      apply (hAttempt alternative).bind
      intro outcome
      split
      · exact Shows.pure _
      · exact ih

theorem parameterNames_quantifierNode (names : Term → String) {bindings : List Binding} {slots : List Nat}
    (hSlots : slots.length = bindings.length) (children : List Int) :
    Node.parameterNames { Condition.quantifierNode names bindings slots with children := children } =
      slots.map fun slot => names (.slot slot) := by
  have hZip := List.map_fst_zip (Nat.le_of_eq hSlots)
  rw [Node.parameterNames, Condition.quantifierNode, List.map_map, ← congrArg (List.map _) hZip, List.map_map]
  rfl

theorem map_parameters_quantifierNode (names : Term → String) {bindings : List Binding} {slots : List Nat}
    (hSlots : slots.length = bindings.length) (objects : List String) :
    (Condition.quantifierNode names bindings slots).parameters.map (fun _ => objects) =
      slots.map fun _ => objects := by
  rw [List.map_const', List.map_const', Condition.quantifierNode, List.length_map, List.length_zip, ← hSlots,
    Nat.min_self]

theorem size_outline_bind (names : Term → String) (slots : List Nat) (chosen : List String)
    (body : Condition) :
    (body.outline (Naming.renaming.bind names slots chosen)).size = (body.outline names).size := by
  show (body.outline (Renaming.apply _ ∘ names)).size = _
  rw [← Condition.mapNames_outline, size_mapNames]

/-- The body of a quantifier in a tree that was renamed for a choice of objects. -/
theorem hasBlock_grounded {tree : Tree} {names : Term → String} {bindings : List Binding} {slots : List Nat}
    {body : Condition} {start : Nat}
    (hBlock : tree.HasBlock start
      (((Condition.quantified bindings slots (some body)).outline names).layout start))
    (chosen : List String) :
    (tree.rename start ((slots.map fun slot => names (.slot slot)).zip chosen)).HasBlock (start + 1)
      ((body.outline (Naming.renaming.bind names slots chosen)).layout (start + 1)) := by
  have hRenamed := hBlock.rename ((slots.map fun slot => names (.slot slot)).zip chosen)
  rw [Condition.mapNames_outline, Condition.outline, Condition.bodyOutlines, layout, hasBlock_cons, layouts,
    layouts, List.append_nil] at hRenamed
  exact hRenamed.2

/-- A quantifier shows what trying every choice of objects shows. -/
theorem shows_quantified {names : Term → String} {bindings : List Binding} {slots : List Nat}
    (hSlots : slots.length = bindings.length) {evaluate : Tree → Int → Snapshot.Run Outcome} {tree : Tree}
    {start : Nat} {body : Int} {attempt : List String → Step Outcome}
    (hAttempt : ∀ chosen, Shows
      (evaluate (tree.rename start ((slots.map fun slot => names (.slot slot)).zip chosen)) body)
      (attempt chosen)) (children : List Int) :
    Shows
      (quantified evaluate tree start
        { Condition.quantifierNode names bindings slots with children := children } body)
      (do
        let objects := (← get).objects
        Interpreter.firstTrue attempt (choices (slots.map fun _ => objects))) := by
  rw [quantified, parameterNames_quantifierNode names hSlots]
  simp only [map_parameters_quantifierNode names hSlots]
  exact (Shows.ask Snapshot.objects).bind fun objects =>
    shows_firstTrue hAttempt (choices (slots.map fun _ => objects))

mutual

/-- Evaluating the block of a condition shows what interpreting the condition shows. -/
theorem shows_within (commit : Bool) :
    ∀ (condition : Condition) (size depth start : Nat) (tree : Tree) (names : Term → String) (negated : Bool),
      condition.WellScoped size → (condition.outline names).size ≤ depth →
        tree.HasBlock start ((condition.outline names).layout start) →
          Shows (within commit depth tree start negated) (walk Naming.renaming commit names negated condition)
  -- The depth is at least the size of the block, so it is never used up.
  | condition, _, 0, _, _, names, _, _, hDepth, _ => absurd (condition.outline names).size_pos (by omega)
  | .conjunction parts, scopeSize, depth + 1, start, tree, names, negated, hScoped, hDepth, hBlock => by
      rw [Condition.outline, layout, hasBlock_cons] at hBlock
      rw [Condition.outline, Outline.size] at hDepth
      have hParts := shows_parts commit parts scopeSize depth (start + 1) tree names negated hScoped
        (by omega) hBlock.2
      rw [within, hBlock.1]
      show Shows (all _ _) _
      rw [all_eq_mapM, walk]
      exact hParts.bind fun _ => Shows.pure _
  | .disjunction parts, scopeSize, depth + 1, start, tree, names, negated, hScoped, hDepth, hBlock => by
      rw [Condition.outline, layout, hasBlock_cons] at hBlock
      rw [Condition.outline, Outline.size] at hDepth
      have hParts := shows_parts commit parts scopeSize depth (start + 1) tree names negated hScoped
        (by omega) hBlock.2
      rw [within, hBlock.1]
      show Shows (any _ _) _
      rw [any_eq_mapM, walk]
      exact hParts.bind fun _ => Shows.pure _
  | .negation part, scopeSize, depth + 1, start, tree, names, negated, hScoped, hDepth, hBlock => by
      rw [Condition.outline, layout, hasBlock_cons, layouts, layouts, List.append_nil] at hBlock
      rw [Condition.outline, Outline.size, sizes, sizes] at hDepth
      have hPart := shows_within commit part scopeSize depth (start + 1) tree names (!negated) hScoped
        (by omega) hBlock.2
      rw [within, hBlock.1, walk]
      exact hPart
  | .atom head, _, depth + 1, start, tree, names, negated, _, _, hBlock => by
      rw [Condition.outline, layout, hasBlock_cons] at hBlock
      rw [within, hBlock.1, walk, ← fact_namedParameters names head .predicate]
      exact shows_predicate commit negated _
  | .comparison op left right, _, depth + 1, start, tree, names, negated, _, hDepth, hBlock => by
      rw [Condition.outline, hasBlock_pair] at hBlock
      obtain ⟨hNode, hLeftBlock, hRightBlock⟩ := hBlock
      rw [Condition.outline, size_pair] at hDepth
      have hLeft := shows_value commit tree names negated left depth (start + 1) (by omega) hLeftBlock
      have hRight := shows_value commit tree names negated right depth _ (by omega) hRightBlock
      rw [within, hNode, walk]
      exact shows_comparison hLeftBlock hRightBlock hLeft hRight start negated op
  | .update op target amount, _, depth + 1, start, tree, names, negated, _, hDepth, hBlock => by
      rw [Condition.outline, hasBlock_pair] at hBlock
      obtain ⟨hNode, hTargetBlock, hAmountBlock⟩ := hBlock
      rw [Condition.outline, size_pair] at hDepth
      have hTarget := shows_value commit tree names negated _ depth (start + 1) (by omega) hTargetBlock
      have hAmount := shows_value commit tree names negated amount depth _ (by omega) hAmountBlock
      have hBoth := Shows.operands (fun child => within commit depth tree child negated) _ _ hTarget hAmount
        (shows_update commit hTargetBlock start op)
      rw [within, hNode, walk]
      exact hBoth
  | .quantified bindings slots none, _, depth + 1, start, tree, names, negated, _, _, hBlock => by
      rw [Condition.outline, layout, hasBlock_cons] at hBlock
      rw [within, hBlock.1, walk, walkBody]
      exact Shows.pure _
  | .quantified bindings slots (some body), scopeSize, depth + 1, start, tree, names, negated, hScoped, hDepth,
      hBlock => by
      have hGrounded := hasBlock_grounded hBlock
      rw [Condition.outline, Condition.bodyOutlines, layout, hasBlock_cons] at hBlock
      rw [Condition.outline, Condition.bodyOutlines, Outline.size, sizes, sizes] at hDepth
      obtain ⟨hRange, hBody⟩ := hScoped
      have hSlots : slots.length = bindings.length := by rw [hRange, List.length_range']
      -- Each choice renames the tree anew, and the body keeps its place in it.
      have hAttempt (chosen : List String) :=
        shows_within commit body _ depth (start + 1) _ _ negated hBody
          (by rw [size_outline_bind]; omega) (hGrounded chosen)
      rw [within, hBlock.1, walk, walkBody]
      exact shows_quantified hSlots hAttempt _

theorem shows_parts (commit : Bool) :
    ∀ (parts : List Condition) (size depth start : Nat) (tree : Tree) (names : Term → String)
      (negated : Bool), Condition.PartsWellScoped size parts → sizes (Condition.partOutlines names parts) ≤ depth →
        tree.HasBlock start (layouts start (Condition.partOutlines names parts)) →
          Shows ((positions start (Condition.partOutlines names parts)).mapM fun child =>
              within commit depth tree child negated)
            (walkParts Naming.renaming commit names negated parts)
  | [], _, _, _, _, _, _, _, _, _ => Shows.pure _
  | part :: parts, scopeSize, depth, start, tree, names, negated, hScoped, hDepth, hBlock => by
      rw [Condition.partOutlines, layouts, hasBlock_append, length_layout] at hBlock
      rw [Condition.partOutlines, sizes] at hDepth
      have hPart := shows_within commit part scopeSize depth start tree names negated hScoped.1
        (by omega) hBlock.1
      have hParts := shows_parts commit parts scopeSize depth _ tree names negated hScoped.2
        (by omega) hBlock.2
      rw [Condition.partOutlines, positions, List.mapM_cons, walkParts]
      exact hPart.bind fun _ => hParts.bind fun _ => Shows.pure _

end

end Evaluation

/-! ## The tree of a condition -/

/-- Evaluating the tree of a condition shows what interpreting the condition shows, where the terms have the
names that lowering gives them. -/
theorem shows_evaluate (commit : Bool) {condition : Option Condition} {size : Nat}
    (hScoped : Condition.BodyWellScoped size condition) (objects : List String) :
    Shows (evaluate commit (Tree.ofCondition condition objects) 0 false)
      (Interpreter.interpret Naming.renaming commit (Term.lowered objects) condition) := by
  cases condition with
  | none => exact Shows.pure _
  | some condition =>
      have hSize := Tree.size_ofCondition condition objects
      rw [evaluate, Tree.isEmpty_ofCondition]
      exact Evaluation.shows_within commit condition size _ 0 _ _ false hScoped (by omega)
        (Tree.hasBlock_ofCondition condition objects)

end PlanLogic
