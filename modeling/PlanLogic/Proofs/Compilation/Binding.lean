import PlanLogic.Proofs.Compilation.Environments

/-!
# Objects put in while or after lowering

Objects for the first slots of a condition can be put in while it is lowered, or the condition can be lowered
with placeholders only, which are then renamed to the objects.  Both give the same tree, also if the objects
reach beyond the scope to the slots of quantifiers, and whatever the objects are called.  The reason is that a
word of a condition is never a placeholder, and that renaming below the first node meets every node once.
-/

namespace PlanLogic

open Outline

/-! ## Outlines under names that agree -/

/-- Two ways to call the terms agree on the terms of every scope. -/
def AgreeOnTerms (names other : Term → String) : Prop :=
  ∀ (size : Nat) (arg : Term), arg.WellScoped size → names arg = other arg

variable {names other : Term → String}

theorem AgreeOnTerms.slot_eq (hAgree : AgreeOnTerms names other) (slot : Nat) :
    names (.slot slot) = other (.slot slot) :=
  hAgree (slot + 1) _ (Nat.lt_succ_self slot)

theorem Atom.namedParameters_congr (hAgree : AgreeOnTerms names other) {size : Nat} {head : Atom}
    (hScoped : head.WellScoped size) : head.namedParameters names = head.namedParameters other :=
  List.map_congr_left fun arg hArg => congrArg (Parameter.mk · "") (hAgree size arg (hScoped arg hArg))

theorem Expression.outline_congr (hAgree : AgreeOnTerms names other) {size : Nat} :
    ∀ {expression : Expression}, expression.WellScoped size → expression.outline names = expression.outline other
  | .number _, _ => rfl
  | .variable slot, _ => by
      rw [outline, outline, hAgree.slot_eq]
  | .constant _, _ => rfl
  | .function head, hScoped => by
      rw [outline, outline, Atom.namedParameters_congr hAgree hScoped]
  | .arithmetic op left right, hScoped => by
      rw [outline, outline, left.outline_congr hAgree hScoped.1, right.outline_congr hAgree hScoped.2]

namespace Condition

theorem quantifierNode_congr (hAgree : AgreeOnTerms names other) (bindings : List Binding) (slots : List Nat) :
    quantifierNode names bindings slots = quantifierNode other bindings slots := by
  simp only [quantifierNode, hAgree.slot_eq]

mutual

/-- The outline of a condition depends only on what the terms of scopes are called. -/
theorem outline_congr (hAgree : AgreeOnTerms names other) :
    ∀ {condition : Condition} {size : Nat}, condition.WellScoped size →
      condition.outline names = condition.outline other
  | .conjunction parts, _, hScoped => by
      rw [outline, outline, partOutlines_congr hAgree hScoped]
  | .disjunction parts, _, hScoped => by
      rw [outline, outline, partOutlines_congr hAgree hScoped]
  | .negation part, _, hScoped => by
      have hPart : part.outline names = part.outline other := outline_congr hAgree hScoped
      rw [outline, outline, hPart]
  | .atom head, _, hScoped => by
      rw [outline, outline, Atom.namedParameters_congr hAgree hScoped]
  | .comparison op left right, _, hScoped => by
      rw [outline, outline, Expression.outline_congr hAgree hScoped.1, Expression.outline_congr hAgree hScoped.2]
  | .update op target amount, size, hScoped => by
      have hTarget : (Expression.function target).WellScoped size := hScoped.1
      rw [outline, outline, Expression.outline_congr hAgree hTarget, Expression.outline_congr hAgree hScoped.2]
  | .quantified bindings slots none, _, _ => by
      rw [outline, outline, quantifierNode_congr hAgree]
      rfl
  | .quantified bindings slots (some body), _, hScoped => by
      have hBody : body.outline names = body.outline other := outline_congr hAgree hScoped.2
      rw [outline, outline, quantifierNode_congr hAgree, bodyOutlines, bodyOutlines, hBody]

theorem partOutlines_congr (hAgree : AgreeOnTerms names other) :
    ∀ {parts : List Condition} {size : Nat}, PartsWellScoped size parts →
      partOutlines names parts = partOutlines other parts
  | [], _, _ => rfl
  | part :: parts, _, hScoped => by
      rw [partOutlines, partOutlines, outline_congr hAgree hScoped.1, partOutlines_congr hAgree hScoped.2]

end

end Condition

/-! ## Placeholders renamed to objects -/

/-- The renaming of the placeholders of the first slots to given objects. -/
def Renaming.ofObjects (objects : List String) : Renaming :=
  ((List.range objects.length).map placeholder).zip objects

theorem lookup_zip_range' (start slot : Nat) (objects : List String) :
    ((List.range' start objects.length).zip objects).lookup (start + slot) = objects[slot]? := by
  induction objects generalizing start slot with
  | nil => rfl
  | cons object objects ih =>
      rw [List.length_cons, List.range'_succ, List.zip_cons_cons, List.lookup_cons]
      cases slot with
      | zero => rw [Nat.add_zero, beq_self_eq_true, List.getElem?_cons_zero]
      | succ slot =>
          have hSkip : (start + (slot + 1) == start) = false := by
            rw [beq_eq_false_iff_ne]
            omega
          rw [hSkip, List.getElem?_cons_succ, show start + (slot + 1) = start + 1 + slot by omega]
          exact ih (start + 1) slot

namespace Renaming

theorem apply_ofObjects_placeholder (objects : List String) (slot : Nat) :
    (ofObjects objects).apply (placeholder slot) = slotName objects slot := by
  have hOnly : ∀ other ∈ List.range objects.length, placeholder other = placeholder slot → other = slot :=
    fun _ _ hSame => placeholder_injective hSame
  rw [ofObjects, apply_zip_map placeholder List.nodup_range hOnly, List.range_eq_range', slotName]
  have hFound := lookup_zip_range' 0 slot objects
  rw [Nat.zero_add] at hFound
  rw [hFound]

theorem apply_ofObjects_word (objects : List String) {word : String} (hWord : isVariable word = false) :
    (ofObjects objects).apply word = word := by
  apply apply_of_notMem
  intro hMem
  obtain ⟨entry, hEntry, rfl⟩ := List.mem_map.mp hMem
  obtain ⟨slot, -, hSame⟩ := List.mem_map.mp (List.of_mem_zip hEntry).1
  rw [← hSame, isVariable_placeholder] at hWord
  exact absurd hWord Bool.noConfusion

/-- Renaming the names that lowering without objects gives to terms gives those of lowering with objects. -/
theorem agreeOnTerms_ofObjects (objects : List String) :
    AgreeOnTerms ((ofObjects objects).apply ∘ Term.lowered []) (Term.lowered objects) := by
  intro size arg hScoped
  cases arg with
  | slot slot => exact apply_ofObjects_placeholder objects slot
  | object word => exact apply_ofObjects_word objects hScoped

end Renaming

/-! ## Renaming a whole tree -/

namespace Tree

theorem renameRange_size (names : Renaming) (tree : Tree) :
    tree.renameRange names 0 tree.size = ⟨tree.nodes.map (Node.rename names)⟩ := by
  apply ext_getElem?
  intro index
  rw [getElem?_renameRange, List.getElem?_map]
  by_cases hRange : index < tree.size
  · simp only [if_pos (⟨Nat.zero_le index, by omega⟩ : 0 ≤ index ∧ index < 0 + tree.size)]
  · rw [List.getElem?_eq_none (Nat.le_of_not_lt hRange)]
    rfl

/-- If the block of an outline is the whole tree, renaming below its first node renames every node. -/
theorem rename_layout (outline : Outline) (names : Renaming) :
    (Tree.mk (outline.layout 0)).rename 0 names = ⟨(outline.mapNames names.apply).layout 0⟩ := by
  have hSize : outline.size = (Tree.mk (outline.layout 0)).size := (length_layout 0 outline).symm
  have hRenamed := renameWithin_layout names outline _ 0 _ (Nat.le_of_eq hSize) (hasBlock_layout outline)
  rw [hSize, renameRange_size] at hRenamed
  rw [layout_mapNames]
  exact hRenamed

/-- The tree of a condition that was read, lowered with any objects, is the tree that it is lowered to without
objects, where the placeholders are renamed to the objects. -/
theorem ofCondition_eq_rename {text : String} {scope : Scope} {condition : Condition}
    (hText : Condition.ofText text scope = .ok (some condition)) (objects : List String) :
    ofCondition (some condition) objects =
      (ofCondition (some condition) []).rename 0 (Renaming.ofObjects objects) := by
  have hScoped : condition.WellScoped scope.size := Condition.wellScoped_of_ofText hText
  rw [ofCondition_eq_layout, ofCondition_eq_layout, rename_layout, Condition.mapNames_outline,
    Condition.outline_congr (Renaming.agreeOnTerms_ofObjects objects) hScoped]

/-- Here the objects reach to the slot of a quantifier, and the first of them is called like its placeholder. -/
theorem ofCondition_eq_rename_covering :
    let condition := Condition.quantified [⟨"?x", "room"⟩] [1] (some (.atom ⟨"at", [.slot 1, .slot 0]⟩))
    Condition.ofText "(exists (?x - room) (at ?x ?y))" ⟨[⟨"?y", "object"⟩]⟩ = .ok (some condition) ∧
      ofCondition (some condition) ["?1", "b"] =
        (ofCondition (some condition) []).rename 0 (Renaming.ofObjects ["?1", "b"]) := by
  intro condition
  have hWords : (Token.ofText "(exists (?x - room) (at ?x ?y))").map Token.text =
      ["(", "exists", "(", "?x", "-", "room", ")", "(", "at", "?x", "?y", ")", ")"] := by
    decide +kernel
  have hBody : Condition.Denotes (Scope.extend ⟨[⟨"?y", "object"⟩]⟩ [⟨"?x", "room"⟩])
      ["(", "at", "?x", "?y", ")"] (some (.atom ⟨"at", [.slot 1, .slot 0]⟩)) :=
    .atom (by decide +kernel) ⟨by decide, by decide⟩
      (.cons (.slot (by decide) (by decide)) (.cons (.slot (by decide) (by decide)) .nil))
  have hDeclares : Declares ["?x", "-", "room"] [⟨"?x", "room"⟩] :=
    @Declares.typed ["?x"] [] "room" [] (by decide) (by decide) (by decide) (@Declares.untyped [] (by decide))
  have hText : Condition.ofText "(exists (?x - room) (at ?x ?y))" ⟨[⟨"?y", "object"⟩]⟩ =
      .ok (some condition) := by
    rw [Condition.ofText_eq_ok_iff, hWords]
    exact .quantified (by decide +kernel) hDeclares (by decide) hBody
  exact ⟨hText, ofCondition_eq_rename hText ["?1", "b"]⟩

end Tree
end PlanLogic
