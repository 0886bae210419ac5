import PlanLogic.Proofs.Documents.RoundTrip
import PlanLogic.Proofs.Evaluation.Compiled
import PlanLogic.Proofs.Evaluation.Invariants

/-!
# Documents of what effects leave

Soundness is an invariant: an effect that was read leads from a sound snapshot to a sound one, whether all of it
could be done or not.  So whatever effects are made true one after the other, starting from what a document
describes, the document of the last snapshot describes that snapshot again.
-/

namespace PlanLogic

namespace Snapshot

/-- A sound snapshot stays sound under the changes that trees over the vocabulary of documents can make. -/
theorem Sound.invariant : Invariant (Vocabulary.writable True) Sound where
  closed := Vocabulary.closed_writable True
  add hFact hSound := hSound.add hFact
  remove _ hSound := hSound.remove _
  write _ hSound := hSound.write _
  objects _ hSound name hName := by
    obtain ⟨fact, hFact, hArg⟩ := mem_objects.mp hName
    exact (hSound.facts_writable fact hFact).spelled.args name hArg

/-- Evaluating a tree that was read keeps a snapshot sound. -/
theorem Sound.evaluated {state : Snapshot} (hSound : state.Sound) {tree : Tree} (hTree : tree.Compiled)
    (commit : Bool) : (state.evaluated commit tree).2.state.Sound :=
  Sound.invariant.evaluated hSound (Vocabulary.covers_of_compiled hTree) commit

/-- The snapshot after effects were made true in order, as far as each of them could be done. -/
def applied (state : Snapshot) (effects : List Tree) : Snapshot :=
  effects.foldl (fun current effect => (current.evaluated true effect).2.state) state

theorem Sound.applied {state : Snapshot} (hSound : state.Sound) {effects : List Tree}
    (hEffects : ∀ effect ∈ effects, effect.Compiled) : (state.applied effects).Sound := by
  induction effects generalizing state with
  | nil => exact hSound
  | cons effect effects ih =>
      exact ih (hSound.evaluated (hEffects effect List.mem_cons_self) true)
        fun later hLater => hEffects later (List.mem_cons_of_mem effect hLater)

/-- What effects leave of a document has no fact and no head twice, and its document describes it: the same
facts and the same numbers in the same order. -/
theorem ofText_text_applied {text : String} {state : Snapshot} (hText : ofText text = .ok state)
    {effects : List Tree} (hEffects : ∀ effect ∈ effects, effect.Compiled) :
    (state.applied effects).facts.Nodup ∧ (state.applied effects).heads.Nodup ∧
      ofText (state.applied effects).text = .ok (state.applied effects) := by
  have hSound := (sound_of_ofText hText).applied hEffects
  exact ⟨hSound.facts_nodup, hSound.heads_nodup, hSound.ofText_text⟩

/-- Here an effect under a quantifier removes a fact and changes a number. -/
theorem ofText_text_applied_quantified :
    let state : Snapshot := ⟨[⟨"p", ["a"]⟩, ⟨"q", []⟩], [⟨⟨"f", ["a"]⟩, 0.1⟩]⟩
    let condition := Condition.quantified [⟨"?x", "object"⟩] [0]
      (some (.conjunction [.negation (.atom ⟨"p", [.slot 0]⟩), .update .increase ⟨"f", [.slot 0]⟩ (.number 2)]))
    let effect := Tree.ofCondition (some condition) []
    ofText "# start\n(p a)\n(= (f a) 0.1)\n(q)\n(p a)" = .ok state ∧ (∀ tree ∈ [effect], tree.Compiled) ∧
      (state.applied [effect]).facts.Nodup ∧ (state.applied [effect]).heads.Nodup ∧
      ofText (state.applied [effect]).text = .ok (state.applied [effect]) := by
  intro state condition effect
  have hState : ofText "# start\n(p a)\n(= (f a) 0.1)\n(q)\n(p a)" = .ok state := by decide +kernel
  have hWords : (Token.ofText "(exists (?x) (and (not (p ?x)) (increase (f ?x) 2)))").map Token.text =
      ["(", "exists", "(", "?x", ")", "(", "and", "(", "not", "(", "p", "?x", ")", ")",
        "(", "increase", "(", "f", "?x", ")", "2", ")", ")", ")"] := by
    decide +kernel
  have hArgs : ArgumentsOf (Scope.empty.extend [⟨"?x", "object"⟩]) ["?x"] [.slot 0] :=
    .cons (.slot (by decide) (by decide)) .nil
  have hAtom : Condition.Denotes _ ["(", "p", "?x", ")"] (some (.atom ⟨"p", [.slot 0]⟩)) :=
    .atom (by decide +kernel) ⟨by decide, by decide⟩ hArgs
  have hNegation : Condition.Denotes _ ["(", "not", "(", "p", "?x", ")", ")"] _ :=
    .negation (by decide +kernel) hAtom
  have hTwo : DenotesExpression (Scope.empty.extend [⟨"?x", "object"⟩]) ["2"] (.number 2) :=
    .number ⟨by decide, by decide⟩ (by decide +kernel)
  have hTarget : DenotesExpression _ ["(", "f", "?x", ")"] (.function ⟨"f", [.slot 0]⟩) :=
    .function ⟨by decide, by decide⟩ (by decide) hArgs
  have hUpdate : Condition.Denotes _ ["(", "increase", "(", "f", "?x", ")", "2", ")"] _ :=
    .update .increase (by decide +kernel) hTarget hTwo
  have hBody : Condition.Denotes _
      ["(", "and", "(", "not", "(", "p", "?x", ")", ")", "(", "increase", "(", "f", "?x", ")", "2", ")", ")"] _ :=
    .conjunction (by decide +kernel) (.cons hNegation (.cons hUpdate .nil))
  have hEffect : effect.Compiled := by
    have hDeclares : Declares ["?x"] [⟨"?x", "object"⟩] := .untyped (by decide)
    have hText : Condition.ofText "(exists (?x) (and (not (p ?x)) (increase (f ?x) 2)))" Scope.empty =
        .ok (some condition) := by
      rw [Condition.ofText_eq_ok_iff, hWords]
      exact .quantified (by decide +kernel) hDeclares (by decide) hBody
    exact .ofText hText fun name hName => absurd hName List.not_mem_nil
  have hEffects : ∀ tree ∈ [effect], tree.Compiled := List.forall_mem_singleton.mpr hEffect
  exact ⟨hState, hEffects, ofText_text_applied hState hEffects⟩

end Snapshot
end PlanLogic
