import PlanLogic.Proofs.Compilation.Outline

/-!
# Outlines of conditions

The block that a condition is lowered to is the layout of an outline in which the terms have the names that
lowering gives them.  Renaming such an outline amounts to giving the terms other names, so blocks that were
renamed are described in the same way.
-/

namespace PlanLogic

/-- The parameters that the arguments of an atom become under given names. -/
def Atom.namedParameters (names : Term → String) (head : Atom) : List Parameter :=
  head.args.map fun arg => ⟨names arg, ""⟩

/-- The outline of an expression under given names of the terms. -/
def Expression.outline (names : Term → String) : Expression → Outline
  | .number value => .mk { kind := .number, value := value } []
  | .variable slot => .mk { kind := .parameter, parameters := [⟨names (.slot slot), ""⟩] } []
  | .constant name => .mk { kind := .constant, name := name } []
  | .function head =>
    .mk { kind := .function, name := head.name, parameters := head.namedParameters names } []
  | .arithmetic op left right =>
    .mk { kind := .expression, operator := op.symbol } [left.outline names, right.outline names]

namespace Condition

/-- The node of a quantifier under given names of the terms. -/
def quantifierNode (names : Term → String) (bindings : List Binding) (slots : List Nat) : Node :=
  { kind := .quantifier,
    parameters := (slots.zip bindings).map fun pair => ⟨names (.slot pair.1), pair.2.type⟩ }

mutual

/-- The outline of a condition under given names of the terms. -/
def outline (names : Term → String) : Condition → Outline
  | .conjunction parts => .mk { kind := .conjunction } (partOutlines names parts)
  | .disjunction parts => .mk { kind := .disjunction } (partOutlines names parts)
  | .negation part => .mk { kind := .negation } [outline names part]
  | .atom head => .mk { kind := .predicate, name := head.name, parameters := head.namedParameters names } []
  | .comparison op left right =>
    .mk { kind := .expression, operator := op.symbol } [left.outline names, right.outline names]
  | .update op target amount =>
    .mk { kind := .update, change := op.symbol }
      [(Expression.function target).outline names, amount.outline names]
  | .quantified bindings slots body => .mk (quantifierNode names bindings slots) (bodyOutlines names body)

/-- The outlines of conditions. -/
def partOutlines (names : Term → String) : List Condition → List Outline
  | [] => []
  | part :: parts => outline names part :: partOutlines names parts

/-- The outlines below a quantifier: none if its body is empty. -/
def bodyOutlines (names : Term → String) : Option Condition → List Outline
  | none => []
  | some condition => [outline names condition]

end

end Condition

open Outline

/-- Laid out, the outline of an expression is its block. -/
theorem Expression.layout_outline (objects : List String) :
    ∀ (expression : Expression) (start : Nat),
      (expression.outline (Term.lowered objects)).layout start = expression.nodes objects start
  | .number value, start => rfl
  | .variable slot, start => rfl
  | .constant name, start => rfl
  | .function head, start => rfl
  | .arithmetic op left right, start => by
      have hLength : (left.outline (Term.lowered objects)).size =
          (left.nodes objects (start + 1)).length := by
        rw [← left.layout_outline objects, length_layout]
      rw [outline, layout, layouts, layouts, layouts, List.append_nil, left.layout_outline objects,
        right.layout_outline objects, hLength, positions, positions, positions, hLength]
      rfl

theorem Expression.mapNames_outline (names : Term → String) (rename : String → String) :
    ∀ expression : Expression,
      (expression.outline names).mapNames rename = expression.outline (rename ∘ names)
  | .number value => rfl
  | .variable slot => rfl
  | .constant name => rfl
  | .function head => by
      simp [outline, mapNames, mapAllNames, Node.mapNames, Atom.namedParameters]
  | .arithmetic op left right => by
      rw [outline, mapNames, mapAllNames, mapAllNames, mapAllNames, left.mapNames_outline names,
        right.mapNames_outline names]
      rfl

namespace Condition

mutual

/-- Laid out, the outline of a condition is its block. -/
theorem layout_outline (objects : List String) :
    ∀ (condition : Condition) (start : Nat),
      (condition.outline (Term.lowered objects)).layout start = condition.nodes objects start
  | .conjunction parts, start => by
      obtain ⟨hPositions, hBlocks⟩ := layouts_partOutlines objects parts (start + 1)
      rw [outline, layout, nodes, hPositions, hBlocks]
  | .disjunction parts, start => by
      obtain ⟨hPositions, hBlocks⟩ := layouts_partOutlines objects parts (start + 1)
      rw [outline, layout, nodes, hPositions, hBlocks]
  | .negation part, start => by
      rw [outline, layout, layouts, layouts, List.append_nil, layout_outline objects part, nodes]
      rfl
  | .atom head, start => rfl
  | .comparison op left right, start => by
      have hLength : (left.outline (Term.lowered objects)).size =
          (left.nodes objects (start + 1)).length := by
        rw [← left.layout_outline, length_layout]
      rw [outline, layout, layouts, layouts, layouts, List.append_nil, left.layout_outline,
        right.layout_outline, hLength, positions, positions, positions, hLength]
      rfl
  | .update op target amount, start => by
      rw [outline, layout, layouts, layouts, layouts, List.append_nil, Expression.layout_outline,
        amount.layout_outline]
      rfl
  | .quantified bindings slots none, start => rfl
  | .quantified bindings slots (some body), start => by
      rw [outline, bodyOutlines, layout, layouts, layouts, List.append_nil, layout_outline objects body]
      rfl

theorem layouts_partOutlines (objects : List String) :
    ∀ (parts : List Condition) (start : Nat),
      positions start (partOutlines (Term.lowered objects) parts) = (partNodes objects start parts).1 ∧
        layouts start (partOutlines (Term.lowered objects) parts) = (partNodes objects start parts).2
  | [], start => ⟨rfl, rfl⟩
  | part :: parts, start => by
      have hBlock := layout_outline objects part start
      have hLength : (part.outline (Term.lowered objects)).size = (part.nodes objects start).length := by
        rw [← hBlock, length_layout]
      obtain ⟨hPositions, hBlocks⟩ :=
        layouts_partOutlines objects parts (start + (part.nodes objects start).length)
      rw [partOutlines, positions, layouts, hLength, hPositions, hBlock, hBlocks]
      exact ⟨rfl, rfl⟩

end

mutual

theorem mapNames_outline (names : Term → String) (rename : String → String) :
    ∀ condition : Condition, (condition.outline names).mapNames rename = condition.outline (rename ∘ names)
  | .conjunction parts => by
      rw [outline, mapNames, mapAllNames_partOutlines]
      rfl
  | .disjunction parts => by
      rw [outline, mapNames, mapAllNames_partOutlines]
      rfl
  | .negation part => by
      rw [outline, mapNames, mapAllNames, mapAllNames, mapNames_outline names rename part]
      rfl
  | .atom head => by
      simp [outline, mapNames, mapAllNames, Node.mapNames, Atom.namedParameters]
  | .comparison op left right => by
      rw [outline, mapNames, mapAllNames, mapAllNames, mapAllNames, left.mapNames_outline,
        right.mapNames_outline]
      rfl
  | .update op target amount => by
      rw [outline, mapNames, mapAllNames, mapAllNames, mapAllNames, Expression.mapNames_outline,
        amount.mapNames_outline]
      rfl
  | .quantified bindings slots none => by
      simp [outline, bodyOutlines, mapNames, mapAllNames, Node.mapNames, quantifierNode]
  | .quantified bindings slots (some body) => by
      rw [outline, bodyOutlines, mapNames, mapAllNames, mapAllNames, mapNames_outline names rename body]
      simp [outline, bodyOutlines, Node.mapNames, quantifierNode]

theorem mapAllNames_partOutlines (names : Term → String) (rename : String → String) :
    ∀ parts : List Condition,
      mapAllNames rename (partOutlines names parts) = partOutlines (rename ∘ names) parts
  | [] => rfl
  | part :: parts => by
      rw [partOutlines, mapAllNames, mapNames_outline names rename part,
        mapAllNames_partOutlines names rename parts]
      rfl

end

end Condition

/-! ## The tree of a condition -/

namespace Tree

variable (condition : Condition) (objects : List String)

theorem ofCondition_eq_layout :
    ofCondition (some condition) objects = ⟨(condition.outline (Term.lowered objects)).layout 0⟩ := by
  rw [condition.layout_outline]
  rfl

theorem size_ofCondition :
    (ofCondition (some condition) objects).size = (condition.outline (Term.lowered objects)).size := by
  rw [ofCondition_eq_layout]
  exact length_layout 0 _

theorem isEmpty_ofCondition : (ofCondition (some condition) objects).isEmpty = false := by
  rw [isEmpty, List.isEmpty_eq_false_iff, ← List.length_pos_iff]
  exact Nat.lt_of_lt_of_eq (size_pos _) (size_ofCondition condition objects).symm

theorem hasBlock_layout (outline : Outline) : (Tree.mk (outline.layout 0)).HasBlock 0 (outline.layout 0) := by
  intro index node hNode
  rwa [Nat.zero_add]

theorem hasBlock_ofCondition :
    (ofCondition (some condition) objects).HasBlock 0 ((condition.outline (Term.lowered objects)).layout 0) := by
  rw [ofCondition_eq_layout]
  exact hasBlock_layout _

end Tree
end PlanLogic
