import PlanLogic.Proofs.Evaluation.Unguarded

/-!
# Evaluation never faults

Evaluation of a tree without cycles ends, and what it looks up is there.  A node is looked up only after its
reference was found to be in range, or after it was evaluated with success, which a reference out of range never is.
A child or a parameter is looked up only after the node was found to have one, and a number is divided only by one
whose size was found to be large enough.  A renamed tree has the shape of the tree, so the body of a quantifier is
found in it again, and the heights that bound all recursions stay the same.
-/

namespace PlanLogic
namespace Unguarded

variable {tree : Tree} {height : Int → Nat} {reference : Int} {node : Node}

/-! ## Nodes and their parts -/

theorem nodeAt_eq (hNode : tree.node? reference = some node) : nodeAt tree reference = .ok node := by
  rw [nodeAt, hNode]

theorem childAt_eq {position : Nat} {child : Int} (hChild : node.children[position]? = some child) :
    childAt node position = .ok child := by
  rw [childAt, hChild]

theorem firstParameter_eq (node : Node) : firstParameter node = .ok node.firstParameter := by
  rw [firstParameter, parameterAt, Node.firstParameter, Node.parameterNames]
  cases node.parameters with
  | nil => rfl
  | cons parameter rest => rfl

/-- Steps that do not fault on the elements of a list. -/
theorem mapM_eq_ok {step : α → Except Fault β} {answer : α → β} {xs : List α}
    (hStep : ∀ x ∈ xs, step x = .ok (answer x)) : xs.mapM step = .ok (xs.map answer) := by
  induction xs with
  | nil => rfl
  | cons x xs ih =>
      rw [List.mapM_cons, hStep x List.mem_cons_self, ih fun other hMem => hStep other (List.mem_cons_of_mem x hMem)]
      rfl

/-! ## Texts -/

/-- The text of a tree without cycles. -/
theorem textWithin_eq (hGraded : tree.Graded height) {depth : Nat} :
    ∀ {bound : Nat} {reference : Int}, height reference < depth → height reference < bound →
      textWithin tree depth reference = .ok (tree.textWithin bound reference) := by
  induction depth with
  | zero => exact fun hDepth => absurd hDepth (Nat.not_lt_zero _)
  | succ depth ih =>
      intro bound reference hDepth hBound
      obtain ⟨bound, rfl⟩ := Nat.exists_eq_add_one_of_ne_zero (Nat.ne_zero_of_lt hBound)
      rw [textWithin, Tree.textWithin]
      split
      · next hRange =>
          obtain ⟨node, hNode⟩ := Tree.exists_node?_iff.mpr hRange
          have hTexts : node.children.mapM (textWithin tree depth) =
              .ok (node.children.map (tree.textWithin bound)) := by
            refine mapM_eq_ok fun child hMem => ?_
            have hLower := hGraded.child_lt ⟨node, hNode, hMem⟩
            exact ih (by omega) (by omega)
          simp only [nodeAt_eq hNode, hNode, bind, Except.bind, hTexts]
          split
          · next hKind =>
              rw [firstParameter_eq, Tree.nodeText]
              simp only [hKind]
          · split
            · rfl
            · rfl
      · next hRange =>
          rw [Tree.node?_eq_none hRange]
          rfl

theorem text_eq (hGraded : tree.Graded height) {limit : Nat} (hLimit : tree.size < limit) (reference : Int) :
    text limit tree reference = .ok (tree.text reference) := by
  have hHeight := hGraded.le_size reference
  rw [text, Tree.text]
  split
  · rfl
  · exact textWithin_eq hGraded (by omega) (by omega)

theorem text_function (hNode : tree.node? reference = some node) (hKind : node.kind = .function) :
    tree.text reference = node.fact.key := by
  have hRange := Tree.node?_lt hNode
  have hSome : tree.isEmpty = false := by
    rw [Tree.isEmpty, List.isEmpty_eq_false_iff, ← List.length_pos_iff]
    rw [Tree.size] at hRange
    omega
  rw [Tree.text, hSome, if_neg Bool.false_ne_true, Tree.textWithin, hNode]
  simp only [hKind, Tree.nodeText]

/-! ## Renaming -/

theorem renameParameter_eq (names : Renaming) (node : Node) (before after : List Parameter) (parameter : Parameter) :
    renameParameter names { node with parameters := before ++ parameter :: after } before.length =
      .ok { node with parameters := before ++ parameter.rename names :: after } := by
  have hFound : (before ++ parameter :: after)[before.length]? = some parameter := by
    rw [List.getElem?_append_right (Nat.le_refl _), Nat.sub_self, List.getElem?_cons_zero]
  have hSet : (before ++ parameter :: after).set before.length (parameter.rename names) =
      before ++ parameter.rename names :: after := by
    rw [List.set_append_right _ _ (Nat.le_refl _), Nat.sub_self, List.set_cons_zero]
  simp only [renameParameter, parameterAt, hFound, bind, Except.bind, hSet]
  rfl

/-- Renaming the parameters from a position on. -/
theorem foldlM_renameParameter (names : Renaming) (node : Node) (rest before : List Parameter) :
    (List.range' before.length rest.length).foldlM (renameParameter names)
        { node with parameters := before ++ rest } =
      .ok { node with parameters := before ++ rest.map (Parameter.rename names) } := by
  induction rest generalizing before with
  | nil => rfl
  | cons parameter rest ih =>
      have hRest := ih (before ++ [parameter.rename names])
      rw [List.length_append, List.append_assoc, List.append_assoc] at hRest
      rw [List.length_cons, List.range'_succ, List.foldlM_cons, renameParameter_eq]
      exact hRest

theorem renameParameters_eq (names : Renaming) (node : Node) :
    renameParameters names node = .ok (node.rename names) := by
  rw [renameParameters, List.range_eq_range']
  exact foldlM_renameParameter names node node.parameters []

/-- Changing a node to what it becomes. -/
theorem modify_eq_of_node? (hNode : tree.node? reference = some node) (change : Node → Node) :
    tree.modify reference.toNat (fun _ => change node) = tree.modify reference.toNat change := by
  have hHere : tree.nodes[reference.toNat]? = some node := by
    rwa [Tree.node?, if_pos (Tree.node?_lt hNode).1] at hNode
  refine congrArg Tree.mk (List.ext_getElem? fun index => ?_)
  rw [List.getElem?_modify, List.getElem?_modify]
  by_cases hIndex : reference.toNat = index
  · rw [← hIndex, hHere]
    simp
  · simp [hIndex]

/-- Renaming out of range changes nothing. -/
theorem renameWithin_outside (hOutside : ¬ (0 ≤ reference ∧ reference < tree.size)) (names : Renaming) (depth : Nat) :
    Tree.renameWithin names depth reference tree = tree := by
  cases depth with
  | zero => rfl
  | succ depth => rw [Tree.renameWithin, Tree.node?_eq_none hOutside]

/-- Renaming below children, one after the other, in trees of one shape. -/
theorem foldlM_renameWithin {names : Renaming} {depth bound : Nat} {children : List Int}
    (hChild : ∀ child ∈ children, ∀ {current : Tree}, tree.SameShape current → 0 ≤ child ∧ child < current.size →
      renameWithin names depth child current = .ok (Tree.renameWithin names bound child current))
    {current : Tree} (hShape : tree.SameShape current) :
    let renamed := children.foldl (fun current child => Tree.renameWithin names bound child current) current
    children.foldlM (fun current child =>
        if 0 ≤ child ∧ child < current.size then renameWithin names depth child current else return current)
        current = .ok renamed ∧
      tree.SameShape renamed := by
  induction children generalizing current with
  | nil => exact ⟨rfl, hShape⟩
  | cons child children ih =>
      obtain ⟨hFirst, hRest⟩ := List.forall_mem_cons.mp hChild
      have hHere : (if 0 ≤ child ∧ child < current.size then renameWithin names depth child current
          else return current) = .ok (Tree.renameWithin names bound child current) := by
        split
        · next hInside => exact hFirst hShape hInside
        · next hOutside =>
            rw [renameWithin_outside hOutside]
            rfl
      have hNext := hShape.trans (Tree.sameShape_renameWithin names bound child current)
      rw [List.foldlM_cons, hHere]
      exact ih hRest hNext

/-- The renaming of a tree without cycles, from a node that is there. -/
theorem renameWithin_eq (names : Renaming) {depth : Nat} :
    ∀ {bound : Nat} {tree : Tree} {reference : Int} {node : Node}, tree.Graded height →
      tree.node? reference = some node → height reference < depth → height reference ≤ bound →
        renameWithin names depth reference tree = .ok (Tree.renameWithin names bound reference tree) := by
  induction depth with
  | zero => exact fun _ _ hDepth => absurd hDepth (Nat.not_lt_zero _)
  | succ depth ih =>
      intro bound tree reference node hGraded hNode hDepth hBound
      have hPositive := hGraded.node_pos hNode
      obtain ⟨bound, rfl⟩ := Nat.exists_eq_add_one_of_ne_zero (Nat.ne_zero_of_lt (hPositive.trans_le hBound))
      have hChild : ∀ child ∈ node.children, ∀ {current : Tree}, tree.SameShape current →
          0 ≤ child ∧ child < current.size →
            renameWithin names depth child current = .ok (Tree.renameWithin names bound child current) := by
        intro child hMem current hShape hInside
        have hLower := hGraded.child_lt ⟨node, hNode, hMem⟩
        obtain ⟨found, hFound⟩ := Tree.exists_node?_iff.mpr hInside
        exact ih (hShape.graded hGraded) hFound (by omega) (by omega)
      obtain ⟨hChildren, hShape⟩ := foldlM_renameWithin hChild rfl
      -- The node is still there, under the names that its children have left.
      obtain ⟨own, hOwn, -⟩ := hShape.node? hNode
      simp only [renameWithin, nodeAt_eq hNode, bind, Except.bind, hChildren, nodeAt_eq hOwn, renameParameters_eq,
        Tree.renameWithin, hNode]
      exact congrArg Except.ok (modify_eq_of_node? hOwn (Node.rename names))

/-- The renaming that a quantifier asks for. -/
theorem renameWithin_eq_rename (hGraded : tree.Graded height) {limit : Nat} (hLimit : tree.size < limit)
    (hNode : tree.node? reference = some node) (names : Renaming) :
    renameWithin names limit reference tree = .ok (tree.rename reference.toNat names) := by
  have hHeight := hGraded.le_size reference
  rw [Tree.rename, Int.toNat_of_nonneg (Tree.node?_lt hNode).1]
  exact renameWithin_eq names hGraded hNode (by omega) hHeight

/-! ## Arithmetic -/

open Float.Model in
/-- Both zeros have the size zero. -/
theorem abs_eq_zero_of_beq {x : Float} (hZero : (x == 0) = true) : x.abs = 0 := by
  have hSame : (x.toModel.unpack.compare (.zero .positive) == some .eq) = true := hZero
  rw [Float.abs, Float.Model.abs]
  -- Only a zero compares equal to zero.
  cases hUnpacked : x.toModel.unpack with
  | zero sign => rfl
  | notANumber =>
      rw [hUnpacked] at hSame
      exact absurd hSame Bool.false_ne_true
  | infinity sign =>
      rw [hUnpacked] at hSame
      cases sign <;> exact absurd hSame Bool.false_ne_true
  | finite sign mantissa exponent hPositive =>
      rw [hUnpacked] at hSame
      cases sign <;> exact absurd hSame Bool.false_ne_true

theorem not_smallestDivisor_lt_zero : ¬ (0 : Float) > smallestDivisor := by
  decide +kernel

theorem zero_le_smallestDivisor : (0 : Float) ≤ smallestDivisor := by
  decide +kernel

/-- A quotient by a number whose size was found not to be zero. -/
theorem quotient_eq {divisor : Float} (hDivisor : divisor.abs ≠ 0) (dividend : Float) :
    quotient dividend divisor = .ok (dividend / divisor) := by
  rw [quotient, if_neg fun hZero => hDivisor (abs_eq_zero_of_beq hZero)]

theorem compute?_eq (op : Arithmetic) (left right : Float) : compute? op left right = .ok (op.compute? left right) := by
  cases op with
  | divide =>
      rw [compute?, Arithmetic.compute?]
      split
      · next hLarge =>
          rw [quotient_eq fun hZero => not_smallestDivisor_lt_zero (hZero ▸ hLarge)]
          rfl
      · rfl
  | _ => rfl

theorem newValue?_eq (op : Update) (old amount : Float) : newValue? op old amount = .ok (op.compute? old amount) := by
  cases op with
  | scaleDown =>
      rw [newValue?, Update.compute?]
      split
      · rfl
      · next hLarge =>
          rw [quotient_eq fun hZero => hLarge (hZero ▸ zero_le_smallestDivisor)]
          rfl
  | _ => rfl

/-! ## Operands -/

theorem symbol?_eq (node : Node) : symbol? node = .ok node.symbol? := by
  rw [symbol?, Node.symbol?, firstParameter_eq]
  cases node.kind <;> rfl

theorem operandsEqual?_eq {left right : Int} {leftNode rightNode : Node} (hLeft : tree.node? left = some leftNode)
    (hRight : tree.node? right = some rightNode) (leftValue rightValue : Float) :
    operandsEqual? tree left right leftValue rightValue =
      .ok (PlanLogic.operandsEqual? leftNode rightNode leftValue rightValue) := by
  simp only [operandsEqual?, nodeAt_eq hLeft, nodeAt_eq hRight, symbol?_eq, bind, Except.bind]
  rw [PlanLogic.operandsEqual?]
  cases leftNode.symbol? with
  | none => rfl
  | some leftName =>
      cases rightNode.symbol? with
      | none => rfl
      | some rightName => rfl

/-! ## Runs without faults -/

/-- A run that may fault does not, and does what the other one does. -/
def Follows (post : α → Prop) (run : Snapshot.Run α) (other : Faulting Snapshot.Run α) : Prop :=
  ∀ observed, other.run observed = (.ok (run observed).1, (run observed).2) ∧ post (run observed).1

/-- Accesses of a snapshot never fault. -/
theorem follows_lift {post : α → Prop} {run : Snapshot.Run α} (hPost : ∀ observed, post (run observed).1) :
    Follows post run (ExceptT.lift run) :=
  fun observed => ⟨rfl, hPost observed⟩

/-- The runs against a snapshot, and the same runs where they may fault. -/
def following (commit : Bool) : Coupling commit Snapshot.Run (Faulting Snapshot.Run) where
  vocabulary := .everything
  closed := Vocabulary.closed_everything
  known _ := True
  Coupled := Follows
  pure hPost _ := ⟨rfl, hPost⟩
  bind hRun hNext observed := by
    obtain ⟨hOther, hMiddle⟩ := hRun observed
    obtain ⟨hOtherNext, hPost⟩ := hNext _ hMiddle _
    refine ⟨Eq.trans ?_ hOtherNext, hPost⟩
    simp only [bind, ExceptT.bind, ExceptT.mk, ExceptT.run, StateT.bind] at hOther ⊢
    rw [hOther]
    rfl
  weaken hRun hPost observed := ⟨(hRun observed).1, hPost _ (hRun observed).2⟩
  holds _ := follows_lift fun _ => trivial
  add _ _ := follows_lift fun _ => trivial
  remove _ _ := follows_lift fun _ => trivial
  value? _ := follows_lift fun _ _ => trivial
  write _ _ _ := follows_lift fun _ => trivial
  objects _ := follows_lift fun _ _ _ => trivial
  report := follows_lift fun _ => trivial

/-- Steps that follow what does not fault. -/
theorem lift_bind {value : Except Fault α} {answer : α} (hValue : value = .ok answer)
    (next : α → Faulting Snapshot.Run β) : (liftM value >>= next) = next answer := by
  rw [hValue]
  rfl

variable {commit : Bool} {limit : Nat}

/-! ## Steps of evaluation -/

section Steps

variable (hGraded : tree.Graded height) (hLimit : tree.size < limit)

include hGraded hLimit

theorem malformed_failed (reference : Int) :
    (following commit).Coupled (· = .failed) (Evaluation.malformed tree reference)
      (malformed limit tree reference) := by
  rw [malformed, lift_bind (text_eq hGraded hLimit reference)]
  exact (following commit).bind (following commit).report fun _ _ => (following commit).pure rfl

theorem malformed_alike (reference : Int) :
    (following commit).Alike (Evaluation.malformed tree reference) (malformed limit tree reference) :=
  (following commit).weaken (malformed_failed hGraded hLimit reference) fun _ _ => trivial

/-- Two children are looked up only if there are two. -/
theorem pair_alike {next : Int → Int → Snapshot.Run Outcome} {otherNext : Int → Int → Faulting Snapshot.Run Outcome}
    (reference : Int)
    (hNext : ∀ left right, node.children = [left, right] →
      (following commit).Alike (next left right) (otherNext left right)) :
    (following commit).Alike
      (match node.children with
      | [left, right] => next left right
      | _ => Evaluation.malformed tree reference)
      (if node.children.length = 2 then do
        let left ← (childAt node 0 : Except Fault Int)
        let right ← (childAt node 1 : Except Fault Int)
        otherNext left right
      else
        malformed limit tree reference) := by
  have hMalformed : (following commit).Alike _ _ := malformed_alike hGraded hLimit reference
  rcases hChildren : node.children with _ | ⟨left, _ | ⟨right, _ | ⟨third, rest⟩⟩⟩
  · exact hMalformed
  · exact hMalformed
  · have hLength : [left, right].length = 2 := rfl
    have hLeft : childAt node 0 = .ok left := childAt_eq (by rw [hChildren]; rfl)
    have hRight : childAt node 1 = .ok right := childAt_eq (by rw [hChildren]; rfl)
    rw [if_pos hLength, lift_bind hLeft, lift_bind hRight]
    exact hNext left right hChildren
  · exact hMalformed

/-- An operator on operands that were evaluated with success, so they have nodes. -/
theorem operation_alike (reference : Int) (negated : Bool) (symbol : String) {left right : Int}
    (hLeft : ∃ node, tree.node? left = some node) (hRight : ∃ node, tree.node? right = some node)
    (leftValue rightValue : Float) :
    (following commit).Alike
      (Evaluation.operation tree reference negated symbol left right leftValue rightValue)
      (operation limit tree reference negated symbol left right leftValue rightValue) := by
  obtain ⟨leftNode, hLeftNode⟩ := hLeft
  obtain ⟨rightNode, hRightNode⟩ := hRight
  rw [Evaluation.operation, operation]
  cases Comparison.ofSymbol? symbol with
  | none =>
      cases Arithmetic.ofSymbol? symbol with
      | none => exact malformed_alike hGraded hLimit reference
      | some op =>
          dsimp only
          rw [lift_bind (compute?_eq op leftValue rightValue)]
          exact Coupling.answer
  | some op =>
      cases op with
      | equal =>
          dsimp only
          rw [hLeftNode, hRightNode, lift_bind (operandsEqual?_eq hLeftNode hRightNode leftValue rightValue)]
          dsimp only
          cases PlanLogic.operandsEqual? leftNode rightNode leftValue rightValue with
          | none => exact malformed_alike hGraded hLimit reference
          | some equal => exact Coupling.answer
      | _ => exact Coupling.answer

/-- An update whose target was evaluated with success, so it has a node. -/
theorem update_alike (reference : Int) (symbol : String) {target : Int}
    (hTarget : ∃ node, tree.node? target = some node) (old amount : Float) :
    (following commit).Alike (Evaluation.update commit tree reference symbol target old amount)
      (update limit commit tree reference symbol target old amount) := by
  obtain ⟨targetNode, hTargetNode⟩ := hTarget
  rw [Evaluation.update, update]
  cases Update.ofSymbol? symbol with
  | none => exact malformed_alike hGraded hLimit reference
  | some op =>
      dsimp only
      rw [lift_bind (newValue?_eq op old amount)]
      cases op.compute? old amount with
      | none => exact Coupling.answer
      | some value =>
          dsimp only
          split
          · next hCommit =>
              rw [Evaluation.commitUpdate, commitUpdate, hTargetNode, lift_bind (nodeAt_eq hTargetNode)]
              dsimp only
              split
              · exact (following commit).bind ((following commit).write hCommit trivial trivial) fun _ _ =>
                  Coupling.answer
              · exact malformed_alike hGraded hLimit reference
          · exact Coupling.answer

/-- A quantifier, if the body can be evaluated under any names. -/
theorem quantified_alike {evaluate : Tree → Int → Snapshot.Run Outcome}
    {other : Tree → Int → Faulting Snapshot.Run Outcome} {body : Int} {rest : List Int}
    (hNode : tree.node? reference = some node) (hChildren : node.children = body :: rest)
    (hBody : ∀ names, (following commit).Alike (evaluate (tree.rename reference.toNat names) body)
      (other (tree.rename reference.toNat names) body)) :
    (following commit).Alike (Evaluation.quantified evaluate tree reference.toNat node body)
      (quantified limit other tree reference node) := by
  refine (following commit).bind ((following commit).objects trivial) fun objects _ => ?_
  refine Coupling.firstTrue fun chosen _ => ?_
  obtain ⟨own, hOwn, hSame⟩ := (Tree.sameShape_rename (node.parameterNames.zip chosen) reference.toNat tree).node? hNode
  have hFirst : childAt own 0 = .ok body := childAt_eq (by rw [hSame, hChildren]; rfl)
  rw [lift_bind (renameWithin_eq_rename hGraded hLimit hNode _), lift_bind (nodeAt_eq hOwn), lift_bind hFirst]
  exact hBody _

end Steps

/-! ## Evaluation -/

/-- A run that succeeds shows that there is a node. -/
def Finds (tree : Tree) (reference : Int) (outcome : Outcome) : Prop :=
  outcome.success = true → ∃ node, tree.node? reference = some node

/-- Evaluating any part of a tree without cycles, to depths above its height. -/
theorem within_follows {depth : Nat} :
    ∀ {bound : Nat} {tree : Tree} {reference : Int} (negated : Bool), tree.Graded height → tree.size < limit →
      height reference < depth → height reference < bound →
        (following commit).Coupled (Finds tree reference) (Evaluation.within commit bound tree reference negated)
          (within limit commit depth tree reference negated) := by
  induction depth with
  | zero => exact fun _ _ _ hDepth => absurd hDepth (Nat.not_lt_zero _)
  | succ depth ih =>
      intro bound tree reference negated hGraded hLimit hDepth hBound
      obtain ⟨bound, rfl⟩ := Nat.exists_eq_add_one_of_ne_zero (Nat.ne_zero_of_lt hBound)
      rw [Evaluation.within, within]
      by_cases hRange : 0 ≤ reference ∧ reference < tree.size
      · obtain ⟨node, hNode⟩ := Tree.exists_node?_iff.mpr hRange
        have hBelow (negated : Bool) {child : Int} (hMem : child ∈ node.children) :
            (following commit).Coupled (Finds tree child) (Evaluation.within commit bound tree child negated)
              (within limit commit depth tree child negated) := by
          have hLower := hGraded.child_lt ⟨node, hNode, hMem⟩
          exact ih negated hGraded hLimit (by omega) (by omega)
        have hAlike (negated : Bool) {child : Int} (hMem : child ∈ node.children) :
            (following commit).Alike (Evaluation.within commit bound tree child negated)
              (within limit commit depth tree child negated) :=
          (following commit).weaken (hBelow negated hMem) fun _ _ => trivial
        rw [if_pos hRange, hNode, lift_bind (nodeAt_eq hNode)]
        refine (following commit).weaken (?_ : (following commit).Alike _ _) fun _ _ _ => ⟨node, hNode⟩
        dsimp only
        cases hKind : node.kind with
        | conjunction => exact Coupling.parts (List.forall₂_same.mpr fun child hMem => hAlike negated hMem) _ _
        | disjunction => exact Coupling.parts (List.forall₂_same.mpr fun child hMem => hAlike negated hMem) _ _
        | negation =>
            cases hChildren : node.children with
            | nil => exact malformed_alike hGraded hLimit reference
            | cons child rest =>
                have hMem : child ∈ node.children := hChildren ▸ List.mem_cons_self
                have hFirst : childAt node 0 = .ok child := childAt_eq (by rw [hChildren]; rfl)
                dsimp only
                rw [if_neg (by simp), lift_bind hFirst]
                exact hAlike _ hMem
        | predicate => exact Coupling.predicate negated trivial
        | function =>
            dsimp only
            rw [lift_bind (text_eq hGraded hLimit reference), text_function hNode hKind]
            exact (following commit).weaken (Coupling.function trivial) fun _ _ => trivial
        | expression =>
            refine pair_alike hGraded hLimit reference fun left right hChildren => ?_
            have hLeft := hBelow negated (hChildren ▸ List.mem_cons_self)
            have hRight := hBelow negated (hChildren ▸ List.mem_cons_of_mem left List.mem_cons_self)
            refine Coupling.operands hLeft hRight fun _ _ hLeftFound hRightFound hLeftSuccess hRightSuccess => ?_
            exact operation_alike hGraded hLimit reference negated _ (hLeftFound hLeftSuccess)
              (hRightFound hRightSuccess) _ _
        | update =>
            refine pair_alike hGraded hLimit reference fun target amount hChildren => ?_
            have hTarget := hBelow negated (hChildren ▸ List.mem_cons_self)
            have hAmount := hBelow negated (hChildren ▸ List.mem_cons_of_mem target List.mem_cons_self)
            refine Coupling.operands hTarget hAmount fun _ _ hFound _ hSuccess _ => ?_
            exact update_alike hGraded hLimit reference _ (hFound hSuccess) _ _
        | number => exact Coupling.answer
        | constant => exact Coupling.answer
        | parameter =>
            dsimp only
            rw [lift_bind (firstParameter_eq node)]
            exact Coupling.answer
        | quantifier =>
            cases hChildren : node.children with
            | nil => exact Coupling.answer
            | cons body rest =>
                have hMem : body ∈ node.children := hChildren ▸ List.mem_cons_self
                have hLower := hGraded.child_lt ⟨node, hNode, hMem⟩
                dsimp only
                rw [if_neg (by simp)]
                refine quantified_alike hGraded hLimit hNode hChildren fun names => ?_
                have hShape := Tree.sameShape_rename names reference.toNat tree
                have hSize : (tree.rename reference.toNat names).size < limit := hShape.size_eq ▸ hLimit
                exact (following commit).weaken (ih negated (hShape.graded hGraded) hSize (by omega) (by omega))
                  fun _ _ => trivial
        | other name => exact malformed_alike hGraded hLimit reference
      · rw [if_neg hRange, Tree.node?_eq_none hRange]
        refine (following commit).weaken (malformed_failed hGraded hLimit reference) fun outcome hFailed hSuccess => ?_
        rw [hFailed] at hSuccess
        exact absurd hSuccess Bool.false_ne_true

end Unguarded

/-- Evaluating any part of a tree without cycles ends without a fault, to any depth above the number of nodes: every
node, child and parameter that is looked up is there, also when texts are put together and parameters are renamed,
and nothing is divided by zero.  The outcome, the snapshot and the diagnostics are those of evaluation. -/
theorem run_unguarded_evaluate {tree : Tree} (hAcyclic : tree.Acyclic) {limit : Nat} (hLimit : tree.size < limit)
    (commit : Bool) (reference : Int) (negated : Bool) (observed : Observed Snapshot) :
    (Unguarded.evaluate limit commit tree reference negated : Faulting Snapshot.Run Outcome).run observed =
      Prod.map .ok id ((evaluate commit tree reference negated : Snapshot.Run Outcome) observed) := by
  have hGraded := hAcyclic.graded
  have hHeight := hGraded.le_size reference
  rw [Unguarded.evaluate, evaluate]
  split
  · rfl
  · have hFollows : Unguarded.Follows _ (Evaluation.within commit (tree.size + 1) tree reference negated) _ :=
      Unguarded.within_follows negated hGraded hLimit (hHeight.trans_lt hLimit) (Nat.lt_succ_of_le hHeight)
    exact (hFollows observed).1

/-- Here nodes are shared, references are out of range, a parameter has no name, a kind is unknown, a number is
divided by zero, and the body of a quantifier is found again under other names. -/
theorem run_unguarded_evaluate_malformed :
    let tree : Tree := ⟨[{ kind := .conjunction, children := [1, 2, 2, -1, 9, 4, 5] },
      { kind := .expression, operator := "/", children := [3, 8] },
      { kind := .other "xor", children := [8] },
      { kind := .parameter },
      { kind := .quantifier, parameters := [⟨"?0", "object"⟩], children := [6, 99] },
      { kind := .update, change := "scale-down", children := [7, 8] },
      { kind := .predicate, name := "p", parameters := [⟨"?0", ""⟩] },
      { kind := .function, name := "f" },
      { kind := .number, value := 0 }]⟩
    let observed : Observed Snapshot := .start ⟨[⟨"q", ["a", "b"]⟩], [⟨⟨"f", []⟩, 4⟩]⟩
    tree.Acyclic ∧ tree.size < 10 ∧
      (Unguarded.evaluate 10 true tree 0 true : Faulting Snapshot.Run Outcome).run observed =
        Prod.map .ok id ((evaluate true tree 0 true : Snapshot.Run Outcome) observed) := by
  intro tree observed
  let height : Int → Nat := fun reference => if 0 ≤ reference then 9 - reference.toNat else 0
  have hFalls {reference child : Int} (hChild : tree.HasChild reference child) : height child < height reference := by
    obtain ⟨node, hNode, hMem⟩ := hChild
    obtain ⟨index, rfl⟩ := Int.eq_ofNat_of_zero_le (Tree.node?_lt hNode).1
    have hAll : ∀ entry ∈ tree.nodes.zipIdx, ∀ child ∈ entry.1.children, height child < height entry.2 := by
      decide
    exact hAll (node, index) (List.mk_mem_zipIdx_iff_getElem?.mpr hNode) child hMem
  have hAcyclic : tree.Acyclic := Tree.acyclic_of_child_lt hFalls
  have hLimit : tree.size < 10 := by decide
  exact ⟨hAcyclic, hLimit, run_unguarded_evaluate hAcyclic hLimit true 0 true observed⟩

end PlanLogic
