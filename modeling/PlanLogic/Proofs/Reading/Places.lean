import PlanLogic.Proofs.Reading.Acceptance
import PlanLogic.Proofs.Text.Lowercase

/-!
# Places in a condition that was read

A part of a condition stands under the quantifiers around it, whose variables it sees after those of the scope.  The
tokens of the part are a word for it in that longer scope.  So each variable that it names is the innermost one of
that name, and a quantifier takes the slots after all of those that it sees: no quantifier takes a slot of another one
around it, or of the scope.  The variables of the scope itself keep their slots at every place.
-/

namespace PlanLogic

/-! ## Innermost variables -/

/-- A slot is the last one of a scope that holds a name. -/
structure Scope.IsInnermost (scope : Scope) (name : String) (slot : Nat) : Prop where
  holds : scope.nameAt? slot = some name
  last : ∀ later, slot < later → scope.nameAt? later ≠ some name

namespace Scope

theorem name_ne_of_lastSlot?_eq_none {name : String} {bindings : List Binding}
    (hNone : lastSlot? name bindings = none) : ∀ binding ∈ bindings, binding.name ≠ name := by
  induction bindings with
  | nil => exact fun _ hMem => absurd hMem List.not_mem_nil
  | cons binding bindings ih =>
      rw [lastSlot?] at hNone
      split at hNone
      · exact absurd hNone (Option.some_ne_none _)
      · next hRest =>
          split at hNone
          · exact absurd hNone (Option.some_ne_none _)
          · next hOther => exact List.forall_mem_cons.mpr ⟨hOther, ih hRest⟩

theorem getElem?_ne_of_lastSlot? {name : String} {bindings : List Binding} {slot : Nat}
    (hSlot : lastSlot? name bindings = some slot) {later : Nat} (hLater : slot < later) :
    bindings[later]?.map Binding.name ≠ some name := by
  induction bindings generalizing slot later with
  | nil => exact absurd hSlot (Option.some_ne_none _).symm
  | cons binding bindings ih =>
      -- A later place is never the first one.
      obtain ⟨later, rfl⟩ := Nat.exists_eq_add_one_of_ne_zero (Nat.ne_of_gt (Nat.zero_lt_of_lt hLater))
      rw [List.getElem?_cons_succ]
      rw [lastSlot?] at hSlot
      split at hSlot
      · next inner hInner =>
          obtain rfl := Option.some.inj hSlot
          exact ih hInner (Nat.lt_of_succ_lt_succ hLater)
      · next hNone =>
          intro hSame
          obtain ⟨found, hFound, hName⟩ := Option.map_eq_some_iff.mp hSame
          exact name_ne_of_lastSlot?_eq_none hNone found (List.mem_of_getElem? hFound) hName

/-- The slot of a name is the innermost one that holds it. -/
theorem isInnermost_of_slotOf? {scope : Scope} {name : String} {slot : Nat}
    (hSlot : scope.slotOf? name = some slot) : scope.IsInnermost name slot :=
  ⟨nameAt?_of_slotOf? hSlot, fun _ hLater => getElem?_ne_of_lastSlot? hSlot hLater⟩

theorem IsInnermost.lt_size {scope : Scope} {name : String} {slot : Nat} (hSlot : scope.IsInnermost name slot) :
    slot < scope.size := by
  obtain ⟨binding, hBinding, -⟩ := Option.map_eq_some_iff.mp hSlot.holds
  exact (List.getElem?_eq_some_iff.mp hBinding).1

theorem extend_nil (scope : Scope) : scope.extend [] = scope := by
  rw [extend, List.append_nil]

theorem extend_extend (scope : Scope) (outer inner : List Binding) :
    (scope.extend outer).extend inner = scope.extend (outer ++ inner) := by
  rw [extend, extend, extend, List.append_assoc]

end Scope

/-! ## The slots that are named -/

/-- The slot of an argument that is a variable. -/
def Term.slot? : Term → Option Nat
  | .slot index => some index
  | .object _ => none

/-- The slots among the arguments of an atom, in order. -/
def Atom.slots (head : Atom) : List Nat :=
  head.args.filterMap Term.slot?

/-- The slots that an expression names, in order. -/
def Expression.slots : Expression → List Nat
  | .number _ => []
  | .variable slot => [slot]
  | .constant _ => []
  | .function head => head.slots
  | .arithmetic _ left right => left.slots ++ right.slots

namespace Condition

/-- The slots that a condition names by itself and not in a part of it, in order. -/
def slots : Condition → List Nat
  | .atom head => head.slots
  | .comparison _ left right => left.slots ++ right.slots
  | .update _ target amount => target.slots ++ amount.slots
  | _ => []

/-- A condition without parts. -/
def IsPlain : Condition → Prop
  | .atom _ => True
  | .comparison _ _ _ => True
  | .update _ _ _ => True
  | _ => False

/-- A part of a condition under quantifiers that declare the listed variables, outermost first. -/
inductive Contains : Condition → List Binding → Condition → Prop
  | here {condition : Condition} : Contains condition [] condition
  | conjunction {parts : List Condition} {part inner : Condition} {declared : List Binding} (hMem : part ∈ parts)
      (hInner : Contains part declared inner) : Contains (.conjunction parts) declared inner
  | disjunction {parts : List Condition} {part inner : Condition} {declared : List Binding} (hMem : part ∈ parts)
      (hInner : Contains part declared inner) : Contains (.disjunction parts) declared inner
  | negation {part inner : Condition} {declared : List Binding} (hInner : Contains part declared inner) :
      Contains (.negation part) declared inner
  | quantified {bindings declared : List Binding} {slots : List Nat} {body inner : Condition}
      (hInner : Contains body declared inner) :
      Contains (.quantified bindings slots (some body)) (bindings ++ declared) inner

/-! ## Words of parts -/

theorem DenoteParts.exists_denotes {scope : Scope} {part : Condition} :
    ∀ {words : List String} {parts : List Condition}, DenoteParts scope words parts → part ∈ parts →
      ∃ used, used <:+: words ∧ Denotes scope used (some part)
  | _, _, .nil, hMem => absurd hMem List.not_mem_nil
  | _, _, @DenoteParts.cons _ words rest found parts hPart hParts, hMem => by
      rcases List.mem_append.mp hMem with hHere | hLater
      · obtain rfl := Option.mem_toList.mp hHere
        exact ⟨words, (List.prefix_append words rest).isInfix, hPart⟩
      · obtain ⟨used, hUsed, hDenotes⟩ := hParts.exists_denotes hLater
        exact ⟨used, hUsed.trans (List.suffix_append words rest).isInfix, hDenotes⟩

/-- The words between a beginning and an end. -/
theorem infix_between (front words back : List String) : words <:+: front ++ (words ++ back) :=
  ⟨front, back, List.append_assoc ..⟩

/-- The tokens of a part are a word for it in the scope with the variables that it sees. -/
theorem Contains.exists_denotes {condition part : Condition} {declared : List Binding}
    (hPlace : condition.Contains declared part) {scope : Scope} {words : List String}
    (hDenotes : Denotes scope words (some condition)) :
    ∃ used, used <:+: words ∧ Denotes (scope.extend declared) used (some part) := by
  induction hPlace generalizing scope words with
  | here => exact ⟨words, List.infix_rfl, by rwa [Scope.extend_nil]⟩
  | conjunction hMem _ ih =>
      cases hDenotes with
      | @conjunction _ name inner _ _ hParts =>
          obtain ⟨middle, hMiddle, hPart⟩ := hParts.exists_denotes hMem
          obtain ⟨used, hUsed, hInner⟩ := ih hPart
          exact ⟨used, (hUsed.trans hMiddle).trans (infix_between ["(", name] inner [")"]), hInner⟩
  | disjunction hMem _ ih =>
      cases hDenotes with
      | @disjunction _ name inner _ _ hParts =>
          obtain ⟨middle, hMiddle, hPart⟩ := hParts.exists_denotes hMem
          obtain ⟨used, hUsed, hInner⟩ := ih hPart
          exact ⟨used, (hUsed.trans hMiddle).trans (infix_between ["(", name] inner [")"]), hInner⟩
  | negation _ ih =>
      cases hDenotes with
      | @negation _ name inner _ _ hPart =>
          obtain ⟨used, hUsed, hInner⟩ := ih hPart
          exact ⟨used, hUsed.trans (infix_between ["(", name] inner [")"]), hInner⟩
  | quantified _ ih =>
      cases hDenotes with
      | @quantified _ name declaration inner _ _ _ _ _ hBody =>
          obtain ⟨used, hUsed, hInner⟩ := ih hBody
          rw [Scope.extend_extend] at hInner
          refine ⟨used, hUsed.trans ?_, hInner⟩
          have hBetween := infix_between ("(" :: name :: "(" :: (declaration ++ [")"])) inner [")"]
          simpa using hBetween

/-! ## The variables among words -/

end Condition

theorem ArgumentsOf.innermost {scope : Scope} {words : List String} {args : List Term}
    (hArgs : ArgumentsOf scope words args) :
    List.Forall₂ scope.IsInnermost (words.filter isVariable) (args.filterMap Term.slot?) := by
  induction hArgs with
  | nil => exact .nil
  | cons hArg _ ih =>
      cases hArg with
      | slot hVariable hSlot =>
          rw [List.filter_cons_of_pos hVariable]
          exact .cons (Scope.isInnermost_of_slotOf? hSlot) ih
      | object hWord =>
          rw [List.filter_cons_of_neg (by simp [hWord.noVariable])]
          exact ih

/-- Parentheses and a name around words are no variables. -/
theorem filter_isVariable_enclosed {name : String} (hName : isVariable name = false) (words : List String) :
    ("(" :: name :: (words ++ [")"])).filter isVariable = words.filter isVariable := by
  rw [List.filter_cons_of_neg (by decide), List.filter_cons_of_neg (by simp [hName]), List.filter_append,
    List.filter_singleton, Reading.not_isVariable_close]
  exact List.append_nil _

theorem DenotesExpression.innermost {scope : Scope} {words : List String} {expression : Expression}
    (hExpression : DenotesExpression scope words expression) :
    List.Forall₂ scope.IsInnermost (words.filter isVariable) expression.slots := by
  have hWordAlone {text : String} (hWord : IsWord text) : [text].filter isVariable = [] := by
    rw [List.filter_singleton, hWord.noVariable]
    rfl
  induction hExpression with
  | number hWord _ =>
      rw [hWordAlone hWord]
      exact .nil
  | slot hVariable hSlot =>
      rw [List.filter_cons_of_pos hVariable]
      exact .cons (Scope.isInnermost_of_slotOf? hSlot) .nil
  | constant hWord _ =>
      rw [hWordAlone hWord]
      exact .nil
  | function hName _ hArgs =>
      rw [filter_isVariable_enclosed hName.noVariable]
      exact ArgumentsOf.innermost hArgs
  | arithmetic op _ _ ihLeft ihRight =>
      rw [filter_isVariable_enclosed (by cases op <;> decide), List.filter_append]
      exact List.rel_append ihLeft ihRight

namespace Condition

/-- A keyword in any mixture of upper and lower case is no variable. -/
theorem not_isVariable_of_isCasing {name keyword : String} (hCasing : IsCasing name keyword)
    (hKeyword : keyword ∈ keywords) : isVariable name = false := by
  rw [isVariable, beq_eq_false_iff_ne]
  intro hFirst
  obtain ⟨rest, hName⟩ := List.head?_eq_some_iff.mp hFirst
  rw [IsCasing, hName] at hCasing
  obtain ⟨letter, letters, hCase, -, hLetters⟩ := List.forall₂_cons_left_iff.mp hCasing
  have hAll : (keywords.all fun keyword => keyword.toList.all fun letter => letter != '?' && letter.toUpper != '?') =
      true := by
    decide
  have hLetter := List.all_eq_true.mp (List.all_eq_true.mp hAll keyword hKeyword) letter (hLetters ▸ List.mem_cons_self)
  simp only [Bool.and_eq_true, bne_iff_ne] at hLetter
  exact hCase.elim (fun hSame => hLetter.1 hSame.symm) fun hSame => hLetter.2 hSame.symm

/-- The variables among the words of a condition without parts are the slots that it names. -/
theorem Denotes.innermost {scope : Scope} {words : List String} {condition : Condition}
    (hDenotes : Denotes scope words (some condition)) (hPlain : condition.IsPlain) :
    List.Forall₂ scope.IsInnermost (words.filter isVariable) condition.slots := by
  cases hDenotes with
  | conjunction => exact absurd hPlain id
  | disjunction => exact absurd hPlain id
  | negation => exact absurd hPlain id
  | quantified => exact absurd hPlain id
  | atom _ hWord hArgs =>
      rw [filter_isVariable_enclosed hWord.noVariable]
      exact ArgumentsOf.innermost hArgs
  | comparison op hName hLeft hRight =>
      rw [filter_isVariable_enclosed (not_isVariable_of_isCasing hName (by cases op <;> decide)), List.filter_append]
      exact List.rel_append hLeft.innermost hRight.innermost
  | update op hName hTarget hAmount =>
      rw [filter_isVariable_enclosed (not_isVariable_of_isCasing hName (by cases op <;> decide)), List.filter_append]
      exact List.rel_append hTarget.innermost hAmount.innermost

/-- A quantifier that was read takes the slots after those that it sees. -/
theorem Denotes.slots_quantified {scope : Scope} {words : List String} {bindings : List Binding} {slots : List Nat}
    {body : Option Condition} (hDenotes : Denotes scope words (some (.quantified bindings slots body))) :
    slots = List.range' scope.size bindings.length := by
  cases hDenotes
  rfl

/-! ## Parts at their places -/

/-- A part of a condition that was read in a scope from a list of words, under quantifiers that declare the listed
variables. -/
structure IsPlaced (scope : Scope) (words : List String) (declared : List Binding) (part : Condition) : Prop where
  /-- The variables of the scope have the slots that they have outside. -/
  outer : ∀ slot < scope.size, (scope.extend declared).bindings[slot]? = scope.bindings[slot]?
  /-- Only slots of variables that are visible are named. -/
  within : ∀ slot ∈ part.slots, slot < scope.size + declared.length
  /-- Each slot that is named is the innermost one of its name. -/
  innermost : ∀ slot ∈ part.slots, ∃ name, (scope.extend declared).IsInnermost name slot
  /-- The part has words of its own, and the slots that it names are those of the variables among them. -/
  worded : ∃ used, used <:+: words ∧ Denotes (scope.extend declared) used (some part) ∧
    (part.IsPlain → List.Forall₂ (scope.extend declared).IsInnermost (used.filter isVariable) part.slots)
  /-- A quantifier takes the slots that follow. -/
  next : ∀ bindings slots body, part = .quantified bindings slots body →
    slots = List.range' (scope.size + declared.length) bindings.length
  /-- A quantifier shares no slot with one inside it, or with the scope. -/
  apart : ∀ bindings slots body, part = .quantified bindings slots (some body) →
    (∀ slot ∈ slots, scope.size ≤ slot) ∧
      ∀ others inner innerSlots rest, body.Contains others (.quantified inner innerSlots rest) →
        slots.Disjoint innerSlots

theorem slots_eq_nil {condition : Condition} (hConnective : ¬ condition.IsPlain) : condition.slots = [] := by
  cases condition with
  | conjunction => rfl
  | disjunction => rfl
  | negation => rfl
  | quantified => rfl
  | atom => exact absurd trivial hConnective
  | comparison => exact absurd trivial hConnective
  | update => exact absurd trivial hConnective

/-- Slots that stand for variables are those of variables. -/
theorem exists_isInnermost_of_mem {scope : Scope} {names : List String} {slots : List Nat}
    (hSlots : List.Forall₂ scope.IsInnermost names slots) {slot : Nat} (hMem : slot ∈ slots) :
    ∃ name, scope.IsInnermost name slot := by
  induction hSlots with
  | nil => exact absurd hMem List.not_mem_nil
  | cons hHead _ ih =>
      rcases List.mem_cons.mp hMem with rfl | hLater
      · exact ⟨_, hHead⟩
      · exact ih hLater

/-- Every part of a condition that was read is at its place.  The scope is a value that reading does not change; in
the scope of a part the variables that were given keep their slots. -/
theorem isPlaced_of_ofText {text : String} {scope : Scope} {condition : Condition}
    (hText : ofText text scope = .ok (some condition)) {declared : List Binding} {part : Condition}
    (hPlace : condition.Contains declared part) :
    IsPlaced scope ((Token.ofText text).map Token.text) declared part := by
  obtain ⟨used, hUsed, hDenotes⟩ := hPlace.exists_denotes (ofText_eq_ok_iff.mp hText)
  have hNamed : ∀ slot ∈ part.slots, ∃ name, (scope.extend declared).IsInnermost name slot := by
    intro slot hSlot
    by_cases hPlain : part.IsPlain
    · exact exists_isInnermost_of_mem (hDenotes.innermost hPlain) hSlot
    · rw [slots_eq_nil hPlain] at hSlot
      exact absurd hSlot List.not_mem_nil
  refine {
    outer := fun slot hSlot => List.getElem?_append_left hSlot
    within := ?_
    innermost := hNamed
    worded := ⟨used, hUsed, hDenotes, hDenotes.innermost⟩
    next := ?_
    apart := ?_ }
  · intro slot hSlot
    obtain ⟨name, hInnermost⟩ := hNamed slot hSlot
    rw [← Scope.size_extend]
    exact hInnermost.lt_size
  · rintro bindings slots body rfl
    rw [← Scope.size_extend]
    exact hDenotes.slots_quantified
  · rintro bindings slots body rfl
    obtain rfl := hDenotes.slots_quantified
    rw [Scope.size_extend]
    refine ⟨fun slot hSlot => ?_, fun others inner innerSlots rest hInner => ?_⟩
    · have hFrom := (List.mem_range'_1.mp hSlot).1
      omega
    · -- The inner quantifier sees the variables of the outer one, so its slots come after theirs.
      obtain ⟨_, -, hInnerDenotes⟩ := (Contains.quantified hInner).exists_denotes hDenotes
      obtain rfl := hInnerDenotes.slots_quantified
      intro slot hOuter hInnerSlot
      have hBelow := (List.mem_range'_1.mp hOuter).2
      have hFrom := (List.mem_range'_1.mp hInnerSlot).1
      simp only [Scope.size_extend, List.length_append] at hFrom
      omega

/-- Two variables of one name are declared at once and hide one of the scope; the quantifier inside sees them all. -/
theorem isPlaced_nested :
    let declared : List Binding := [⟨"?x", "room"⟩, ⟨"?x", "room"⟩, ⟨"?y", "object"⟩]
    let inner := Condition.quantified [⟨"?y", "object"⟩] [4] (some (.atom ⟨"q", [.slot 3, .slot 4, .slot 1]⟩))
    let condition := Condition.quantified [⟨"?x", "room"⟩, ⟨"?x", "room"⟩] [2, 3]
      (some (.conjunction [.atom ⟨"p", [.slot 3]⟩, inner]))
    ofText "(exists (?x ?x - room) (and (p ?x) (exists (?y) (q ?x ?y ?z))))" ⟨[⟨"?x", "room"⟩, ⟨"?z", "room"⟩]⟩ =
        .ok (some condition) ∧
      condition.Contains declared (.atom ⟨"q", [.slot 3, .slot 4, .slot 1]⟩) ∧
      IsPlaced ⟨[⟨"?x", "room"⟩, ⟨"?z", "room"⟩]⟩
        ((Token.ofText "(exists (?x ?x - room) (and (p ?x) (exists (?y) (q ?x ?y ?z))))").map Token.text) declared
        (.atom ⟨"q", [.slot 3, .slot 4, .slot 1]⟩) := by
  intro declared inner condition
  have hWords : (Token.ofText "(exists (?x ?x - room) (and (p ?x) (exists (?y) (q ?x ?y ?z))))").map Token.text =
      ["(", "exists", "(", "?x", "?x", "-", "room", ")", "(", "and", "(", "p", "?x", ")",
        "(", "exists", "(", "?y", ")", "(", "q", "?x", "?y", "?z", ")", ")", ")", ")"] := by
    decide +kernel
  have hInner : Denotes ⟨[⟨"?x", "room"⟩, ⟨"?z", "room"⟩, ⟨"?x", "room"⟩, ⟨"?x", "room"⟩]⟩
      ["(", "exists", "(", "?y", ")", "(", "q", "?x", "?y", "?z", ")", ")"] (some inner) :=
    .quantified (by decide +kernel) (@Declares.untyped ["?y"] (by decide)) (by decide)
      (.atom (by decide +kernel) ⟨by decide, by decide⟩
        (.cons (.slot (by decide) (by decide)) (.cons (.slot (by decide) (by decide))
          (.cons (.slot (by decide) (by decide)) .nil))))
  have hFirst : Denotes ⟨[⟨"?x", "room"⟩, ⟨"?z", "room"⟩, ⟨"?x", "room"⟩, ⟨"?x", "room"⟩]⟩
      ["(", "p", "?x", ")"] (some (.atom ⟨"p", [.slot 3]⟩)) :=
    .atom (by decide +kernel) ⟨by decide, by decide⟩ (.cons (.slot (by decide) (by decide)) .nil)
  have hBody : Denotes (Scope.extend ⟨[⟨"?x", "room"⟩, ⟨"?z", "room"⟩]⟩ [⟨"?x", "room"⟩, ⟨"?x", "room"⟩])
      ["(", "and", "(", "p", "?x", ")", "(", "exists", "(", "?y", ")", "(", "q", "?x", "?y", "?z", ")", ")", ")"]
      (some (.conjunction [.atom ⟨"p", [.slot 3]⟩, inner])) :=
    .conjunction (by decide +kernel) (.cons hFirst (.cons hInner .nil))
  have hDeclares : Declares ["?x", "?x", "-", "room"] [⟨"?x", "room"⟩, ⟨"?x", "room"⟩] :=
    @Declares.typed ["?x", "?x"] [] "room" [] (by decide) (by decide) (by decide) (@Declares.untyped [] (by decide))
  have hText : ofText "(exists (?x ?x - room) (and (p ?x) (exists (?y) (q ?x ?y ?z))))"
      ⟨[⟨"?x", "room"⟩, ⟨"?z", "room"⟩]⟩ = .ok (some condition) := by
    rw [ofText_eq_ok_iff, hWords]
    exact .quantified (by decide +kernel) hDeclares (by decide) hBody
  have hPlace : condition.Contains declared (.atom ⟨"q", [.slot 3, .slot 4, .slot 1]⟩) :=
    .quantified (.conjunction (.tail _ (.head _)) (.quantified .here))
  exact ⟨hText, hPlace, isPlaced_of_ofText hText hPlace⟩

end Condition
end PlanLogic
