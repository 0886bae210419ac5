import PlanLogic.Problem.Server
import PlanLogic.Proofs.Compilation.Simulation
import PlanLogic.Proofs.Documents.RoundTrip

/-!
# Accounts of effects

Making an effect true adds and removes facts, computes comparisons, and computes and writes numbers.  An account
lists these deeds and says of each whether it was done.  It has two parts, because a quantifier forgets: when the
attempt with some objects does not come out true, whether its deeds were done no longer counts.

The interpreter is run once more with an account beside it.  The account changes nothing, and the effect is
reported as done exactly if every deed that counts was done.
-/

namespace PlanLogic

/-- What was done for an atom, a comparison or an update. -/
inductive Deed where
  | added (fact : Fact)
  | removed (fact : Fact)
  /-- A comparison, and whether it could be computed. -/
  | compared (computed : Bool)
  /-- An update of a head: its new value, if that could be computed, and whether it was written. -/
  | updated (head : Fact) (value : Option Float) (written : Bool)
deriving DecidableEq

/-- Whether a deed was done.  A snapshot refuses neither to add a fact nor to remove one. -/
def Deed.done : Deed → Bool
  | .added _ => true
  | .removed _ => true
  | .compared computed => computed
  | .updated _ value written => value.isSome && written

/-- The deeds of an effect: those that count, and those of attempts that did not come out true. -/
structure Account where
  counted : List Deed
  passedOver : List Deed
deriving DecidableEq

namespace Account

/-- No deeds. -/
def nothing : Account := ⟨[], []⟩

/-- One deed that counts. -/
def single (deed : Deed) : Account := ⟨[deed], []⟩

/-- The deeds of two accounts. -/
def append (account later : Account) : Account :=
  ⟨account.counted ++ later.counted, account.passedOver ++ later.passedOver⟩

/-- The same deeds, none of which counts. -/
def passOver (account : Account) : Account :=
  ⟨[], account.counted ++ account.passedOver⟩

/-- Whether every deed that counts was done. -/
def allDone (account : Account) : Bool :=
  account.counted.all Deed.done

end Account

namespace Interpreter

variable (naming : Naming ε)

/-! ## The interpreter with an account -/

/-- The new value of a head, if it can be computed. -/
def newValue? (env : ε) (op : Update) (target : Atom) (amount : Expression) (state : Snapshot) : Option Float :=
  let old := value naming env state (.function target)
  let change := value naming env state amount
  if old.success && change.success then op.compute? old.value change.value else none

/-- Adds or removes a fact. -/
def enactAtom (negated : Bool) (fact : Fact) : Step (Outcome × Account) := do
  let outcome ← atom true negated fact
  return (outcome, .single (if negated then .removed fact else .added fact))

/-- Computes a comparison. -/
def enactComparison (env : ε) (negated : Bool) (op : Comparison) (left right : Expression) :
    Step (Outcome × Account) := fun state =>
  let outcome := compare naming env negated op left right state
  ((outcome, .single (.compared outcome.success)), state)

/-- Computes the new value of a head and writes it. -/
def enactUpdate (env : ε) (op : Update) (target : Atom) (amount : Expression) : Step (Outcome × Account) :=
  fun state =>
    let head := naming.fact env target
    match newValue? naming env op target amount state with
    | none => ((.failed, .single (.updated head none false)), state)
    | some new =>
      let written := state.assigns head
      ((⟨written, false, new⟩, .single (.updated head (some new) written)), state.write ⟨head, new⟩)

/-- Tries alternatives in order and stops at the first that comes out true; the deeds of the others do not
count. -/
def enactFirstTrue (attempt : α → Step (Outcome × Account)) : List α → Step (Outcome × Account)
  | [] => return (.judged false, .nothing)
  | alternative :: rest => do
    let reply ← attempt alternative
    if reply.1.truth then
      return reply
    else
      let final ← enactFirstTrue attempt rest
      return (final.1, reply.2.passOver.append final.2)

mutual

/-- Makes a condition true and keeps an account. -/
def enact (env : ε) (negated : Bool) : Condition → Step (Outcome × Account)
  | .conjunction parts => do
    let reply ← enactParts env negated parts
    return (⟨reply.1.all Outcome.success, reply.1.all Outcome.truth, 0⟩, reply.2)
  | .disjunction parts => do
    let reply ← enactParts env negated parts
    return (⟨reply.1.all Outcome.success, reply.1.any Outcome.truth, 0⟩, reply.2)
  | .negation part => enact env (!negated) part
  | .atom head => enactAtom negated (naming.fact env head)
  | .comparison op left right => enactComparison naming env negated op left right
  | .update op target amount => enactUpdate naming env op target amount
  | .quantified _ slots body => enactBody env negated slots body

/-- Makes conditions true in order. -/
def enactParts (env : ε) (negated : Bool) : List Condition → Step (List Outcome × Account)
  | [] => return ([], .nothing)
  | part :: parts => do
    let reply ← enact env negated part
    let later ← enactParts env negated parts
    return (reply.1 :: later.1, reply.2.append later.2)

/-- Makes the body of a quantifier true with every choice of objects for its slots until it comes out true. -/
def enactBody (env : ε) (negated : Bool) (slots : List Nat) : Option Condition → Step (Outcome × Account)
  | none => return (.judged true, .nothing)
  | some body => do
    let objects := (← get).objects
    enactFirstTrue (fun chosen => enact (naming.bind env slots chosen) negated body)
      (choices (slots.map fun _ => objects))

end

/-- Makes an effect true that may be empty. -/
def enactEffect (env : ε) : Option Condition → Step (Outcome × Account)
  | none => return (.judged true, .nothing)
  | some condition => enact naming env false condition

end Interpreter

namespace Condition

mutual

/-- Whether a condition has no quantifier. -/
def quantifierFree : Condition → Bool
  | .conjunction parts => partsQuantifierFree parts
  | .disjunction parts => partsQuantifierFree parts
  | .negation part => quantifierFree part
  | .atom _ => true
  | .comparison _ _ _ => true
  | .update _ _ _ => true
  | .quantified _ _ _ => false

/-- Whether conditions have no quantifier. -/
def partsQuantifierFree : List Condition → Bool
  | [] => true
  | part :: parts => quantifierFree part && partsQuantifierFree parts

end

end Condition

/-! ## The account decides the report -/

/-- What is reported goes with an account: it is a success exactly if every deed that counts was done, and
without quantifiers no deed is passed over. -/
structure Reports (free success : Bool) (account : Account) : Prop where
  success_eq : success = account.allDone
  passedOver_eq_nil : free = true → account.passedOver = []

namespace Reports

theorem nothing (free : Bool) : Reports free true .nothing :=
  ⟨rfl, fun _ => rfl⟩

theorem single (free : Bool) (deed : Deed) : Reports free deed.done (.single deed) :=
  ⟨(Bool.and_true _).symm, fun _ => rfl⟩

theorem append {free laterFree success laterSuccess : Bool} {account later : Account}
    (hReports : Reports free success account) (hLater : Reports laterFree laterSuccess later) :
    Reports (free && laterFree) (success && laterSuccess) (account.append later) where
  success_eq := by rw [hReports.success_eq, hLater.success_eq, Account.allDone, Account.allDone, Account.allDone,
    Account.append, List.all_append]
  passedOver_eq_nil hFree := by
    rw [Bool.and_eq_true] at hFree
    rw [Account.append, hReports.passedOver_eq_nil hFree.1, hLater.passedOver_eq_nil hFree.2, List.append_nil]

/-- Deeds that are passed over do not bear on what is reported. -/
theorem passOver_append {free laterFree success : Bool} {later : Account} (hLater : Reports laterFree success later)
    (hFree : free = false) (account : Account) : Reports free success (account.passOver.append later) where
  success_eq := hLater.success_eq
  passedOver_eq_nil hTrue := absurd (hFree.symm.trans hTrue) Bool.false_ne_true

end Reports

/-! ## The account changes nothing -/

/-- A step with an account does what a step does, and its answer goes with the account. -/
def Recounts (post : α → Account → Prop) (kept : Interpreter.Step (α × Account)) (step : Interpreter.Step α) :
    Prop :=
  ∀ state, step state = ((kept state).1.1, (kept state).2) ∧ post (kept state).1.1 (kept state).1.2

namespace Recounts

theorem pure {post : α → Account → Prop} {answer : α} {account : Account} (hPost : post answer account) :
    Recounts post (Pure.pure (answer, account)) (Pure.pure answer) :=
  fun _ => ⟨rfl, hPost⟩

theorem bind {middle : α → Account → Prop} {post : β → Account → Prop} {kept : Interpreter.Step (α × Account)}
    {step : Interpreter.Step α} {keptNext : α × Account → Interpreter.Step (β × Account)}
    {next : α → Interpreter.Step β} (hStep : Recounts middle kept step)
    (hNext : ∀ answer account, middle answer account → Recounts post (keptNext (answer, account)) (next answer)) :
    Recounts post (kept >>= keptNext) (step >>= next) := by
  intro state
  obtain ⟨hSame, hMiddle⟩ := hStep state
  obtain ⟨hSameNext, hPost⟩ := hNext _ _ hMiddle (kept state).2
  refine ⟨?_, hPost⟩
  show next (step state).1 (step state).2 = _
  rw [hSame]
  exact hSameNext

/-- A step whose account is changed afterwards. -/
theorem onAccount {pre post : α → Account → Prop} {kept : Interpreter.Step (α × Account)}
    {step : Interpreter.Step α} {change : Account → Account} (hStep : Recounts pre kept step)
    (hPost : ∀ answer account, pre answer account → post answer (change account)) :
    Recounts post (do let reply ← kept; return (reply.1, change reply.2)) step :=
  fun state => ⟨(hStep state).1, hPost _ _ (hStep state).2⟩

end Recounts

namespace Interpreter

variable (naming : Naming ε)

theorem recounts_atom (free negated : Bool) (fact : Fact) :
    Recounts (fun outcome => Reports free outcome.success) (enactAtom negated fact) (atom true negated fact) := by
  intro state
  cases negated with
  | false => exact ⟨rfl, .single free (.added fact)⟩
  | true => exact ⟨rfl, .single free (.removed fact)⟩

theorem recounts_comparison (free : Bool) (env : ε) (negated : Bool) (op : Comparison) (left right : Expression) :
    Recounts (fun outcome => Reports free outcome.success) (enactComparison naming env negated op left right)
      fun state => (compare naming env negated op left right state, state) :=
  fun _ => ⟨rfl, .single free (.compared _)⟩

theorem recounts_update (free : Bool) (env : ε) (op : Update) (target : Atom) (amount : Expression) :
    Recounts (fun outcome => Reports free outcome.success) (enactUpdate naming env op target amount)
      (update naming true env op target amount) := by
  intro state
  rw [enactUpdate, update, newValue?]
  dsimp only
  by_cases hOperands : ((value naming env state (.function target)).success &&
      (value naming env state amount).success) = true
  · rw [if_pos hOperands, if_pos hOperands]
    cases op.compute? (value naming env state (.function target)).value (value naming env state amount).value with
    | none => exact ⟨rfl, .single free (.updated _ none false)⟩
    | some new => exact ⟨rfl, .single free (.updated _ (some new) _)⟩
  · rw [if_neg hOperands, if_neg hOperands]
    exact ⟨rfl, .single free (.updated _ none false)⟩

/-- An attempt that does not come out true is passed over. -/
theorem recounts_firstTrue {kept : α → Step (Outcome × Account)} {attempt : α → Step Outcome} {free : Bool}
    (hAttempt : ∀ alternative,
      Recounts (fun outcome => Reports free outcome.success) (kept alternative) (attempt alternative))
    (alternatives : List α) :
    Recounts (fun outcome => Reports false outcome.success) (enactFirstTrue kept alternatives)
      (firstTrue attempt alternatives) := by
  induction alternatives with
  | nil => exact .pure (.nothing false)
  | cons alternative rest ih =>
      rw [enactFirstTrue, firstTrue]
      refine (hAttempt alternative).bind fun outcome account hReports => ?_
      by_cases hTrue : outcome.truth = true
      · rw [if_pos hTrue, if_pos hTrue]
        exact .pure ⟨hReports.success_eq, fun hFree => absurd hFree Bool.false_ne_true⟩
      · rw [if_neg hTrue, if_neg hTrue]
        exact ih.onAccount fun _ _ hLater => hLater.passOver_append rfl account

mutual

/-- Making a condition true with an account is making it true, and the account says what is reported. -/
theorem recounts_enact :
    ∀ (condition : Condition) (env : ε) (negated : Bool),
      Recounts (fun outcome => Reports condition.quantifierFree outcome.success)
        (enact naming env negated condition) (walk naming true env negated condition)
  | .conjunction parts, env, negated => by
      rw [enact, walk]
      exact (recounts_enactParts parts env negated).bind fun _ _ hReports => .pure hReports
  | .disjunction parts, env, negated => by
      rw [enact, walk]
      exact (recounts_enactParts parts env negated).bind fun _ _ hReports => .pure hReports
  | .negation part, env, negated => by
      rw [enact, walk]
      exact recounts_enact part env (!negated)
  | .atom head, env, negated => by
      rw [enact, walk]
      exact recounts_atom true negated _
  | .comparison op left right, env, negated => by
      rw [enact, walk]
      exact recounts_comparison naming true env negated op left right
  | .update op target amount, env, negated => by
      rw [enact, walk]
      exact recounts_update naming true env op target amount
  | .quantified _ slots none, env, negated => by
      rw [enact, walk, enactBody, walkBody]
      exact .pure (.nothing false)
  | .quantified _ slots (some body), env, negated => by
      rw [enact, walk, enactBody, walkBody]
      intro state
      exact recounts_firstTrue (fun chosen => recounts_enact body (naming.bind env slots chosen) negated)
        (choices (slots.map fun _ => state.objects)) state

theorem recounts_enactParts :
    ∀ (parts : List Condition) (env : ε) (negated : Bool),
      Recounts (fun outcomes => Reports (Condition.partsQuantifierFree parts) (outcomes.all Outcome.success))
        (enactParts naming env negated parts) (walkParts naming true env negated parts)
  | [], env, negated => .pure (.nothing true)
  | part :: parts, env, negated => by
      rw [enactParts, walkParts]
      exact (recounts_enact part env negated).bind fun _ _ hReports =>
        (recounts_enactParts parts env negated).bind fun _ _ hLater => .pure (hReports.append hLater)

end

/-- The same of an effect that may be empty. -/
theorem recounts_enactEffect (env : ε) (condition : Option Condition) :
    Recounts (fun outcome => Reports (condition.all Condition.quantifierFree) outcome.success)
      (enactEffect naming env condition) (interpret naming true env condition) := by
  cases condition with
  | none => exact .pure (.nothing _)
  | some condition => exact recounts_enact naming condition env false

end Interpreter

/-! ## What the report on an effect says -/

/-- Making an effect that was read true does what its account lists.  It is reported as done exactly if every
deed was done that counts; and without quantifiers every deed counts. -/
theorem applyEffect_eq_allDone {text : String} {scope : Scope} {condition : Option Condition}
    (hText : Condition.ofText text scope = .ok condition) (objects : List String) (observed : Observed Snapshot) :
    let kept := Interpreter.enactEffect Naming.renaming (Term.lowered objects) condition observed.state
    Snapshot.Run.result (applyEffect (Tree.ofCondition condition objects) 0) observed = (kept.1.2.allDone, kept.2) ∧
      (condition.all Condition.quantifierFree = true → kept.1.2.passedOver = []) := by
  intro kept
  have hShown := shows_evaluate true (Condition.wellScoped_of_ofText hText) objects observed
  obtain ⟨hSame, hReports⟩ :=
    Interpreter.recounts_enactEffect Naming.renaming (Term.lowered objects) condition observed.state
  refine ⟨?_, hReports.passedOver_eq_nil⟩
  have hResult := hShown.trans hSame
  rw [← hReports.success_eq]
  exact congrArg (fun result : Outcome × Snapshot => (result.1.success, result.2)) hResult

/-- An update under a quantifier, read from a text. -/
theorem ofText_quantified_update :
    Condition.ofText "(exists (?x) (increase (f ?x) 1))" Scope.empty =
      .ok (some (.quantified [⟨"?x", "object"⟩] [0] (some (.update .increase ⟨"f", [.slot 0]⟩ (.number 1))))) := by
  have hWords : (Token.ofText "(exists (?x) (increase (f ?x) 1))").map Token.text =
      ["(", "exists", "(", "?x", ")", "(", "increase", "(", "f", "?x", ")", "1", ")", ")"] := by
    decide +kernel
  have hArgs : ArgumentsOf (Scope.empty.extend [⟨"?x", "object"⟩]) ["?x"] [.slot 0] :=
    .cons (.slot (by decide) (by decide)) .nil
  have hTarget : DenotesExpression _ ["(", "f", "?x", ")"] (.function ⟨"f", [.slot 0]⟩) :=
    .function ⟨by decide, by decide⟩ (by decide) hArgs
  have hOne : DenotesExpression (Scope.empty.extend [⟨"?x", "object"⟩]) ["1"] (.number 1) :=
    .number ⟨by decide, by decide⟩ (by decide +kernel)
  have hUpdate : Condition.Denotes _ ["(", "increase", "(", "f", "?x", ")", "1", ")"] _ :=
    .update .increase (by decide +kernel) hTarget hOne
  have hDeclares : Declares ["?x"] [⟨"?x", "object"⟩] := .untyped (by decide)
  rw [Condition.ofText_eq_ok_iff, hWords]
  exact .quantified (by decide +kernel) hDeclares (by decide) hUpdate

/-- Here the account of an effect has a deed that is passed over. -/
theorem applyEffect_eq_allDone_passedOver :
    let condition :=
      Condition.quantified [⟨"?x", "object"⟩] [0] (some (.update .increase ⟨"f", [.slot 0]⟩ (.number 1)))
    let state : Snapshot := ⟨[⟨"p", ["a"]⟩], []⟩
    let kept := Interpreter.enactEffect Naming.renaming (Term.lowered []) (some condition) state
    Condition.ofText "(exists (?x) (increase (f ?x) 1))" Scope.empty = .ok (some condition) ∧
      kept.1.2 = ⟨[], [.updated ⟨"f", ["a"]⟩ none false]⟩ ∧
      Snapshot.Run.result (applyEffect (Tree.ofCondition (some condition) []) 0) (.start state) =
        (kept.1.2.allDone, kept.2) := by
  intro condition state kept
  exact ⟨ofText_quantified_update, by decide +kernel,
    (applyEffect_eq_allDone ofText_quantified_update [] (.start state)).1⟩

/-- The effect is reported as done, though the update could not be computed for the only object. -/
theorem applyEffect_quantified_failing :
    let condition :=
      Condition.quantified [⟨"?x", "object"⟩] [0] (some (.update .increase ⟨"f", [.slot 0]⟩ (.number 1)))
    let effect := Tree.ofCondition (some condition) []
    let state : Snapshot := ⟨[⟨"p", ["a"]⟩], []⟩
    Condition.ofText "(exists (?x) (increase (f ?x) 1))" Scope.empty = .ok (some condition) ∧
      Snapshot.ofText "(p a)" = .ok state ∧
      Snapshot.Run.result (applyEffect effect 0) (.start state) = (true, state) ∧
      state.objects = ["a"] ∧
      Snapshot.Run.result (applyEffect (effect.rename 0 [("?0", "a")]) 1) (.start state) = (false, state) := by
  intro condition effect state
  exact ⟨ofText_quantified_update, by decide +kernel, by decide +kernel, by decide, by decide +kernel⟩

end PlanLogic
