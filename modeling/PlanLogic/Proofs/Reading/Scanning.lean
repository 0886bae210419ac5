import PlanLogic.Token.Basic

/-!
# Scanning

A scan goes from one character to the next: each character completes at most two tokens and decides what the
scan is in the middle of afterwards.  What every such step keeps, the whole scan keeps; so each token of a
text starts inside the text.
-/

namespace PlanLogic
namespace Token

/-- The tokens that a character completes, and what the scan is in the middle of after it. -/
def Mode.step (position : Nat) (c : Char) : Mode → List Token × Mode
  | .comment => ([], if c = '\n' then .gap else .comment)
  | .gap =>
    if Text.isBlank c then ([], .gap)
    else if isParenthesis c then ([⟨String.ofList [c], position⟩], .gap)
    else if c = ';' then ([], .comment)
    else ([], .symbol position [c])
  | .symbol start reversed =>
    if Text.isBlank c then (finish (.symbol start reversed), .gap)
    else if isParenthesis c then
      (finish (.symbol start reversed) ++ [⟨String.ofList [c], position⟩], .gap)
    else ([], .symbol start (c :: reversed))

theorem scan_cons (mode : Mode) (position : Nat) (c : Char) (cs : List Char) :
    scan mode position (c :: cs) =
      (mode.step position c).1 ++ scan (mode.step position c).2 (position + 1) cs := by
  cases mode with
  | comment => rfl
  | gap =>
      rw [scan, Mode.step]
      split
      · rfl
      split
      · rfl
      split
      · rfl
      · rfl
  | symbol start reversed =>
      rw [scan, Mode.step]
      split
      · rfl
      split
      · rfl
      · rfl

/-! ## Places of tokens -/

/-- A symbol that is being read starts before the next character. -/
def Mode.StartsBefore (position : Nat) : Mode → Prop
  | .symbol start _ => start < position
  | _ => True

theorem Mode.StartsBefore.finish {position : Nat} {mode : Mode} (hMode : mode.StartsBefore position)
    {token : Token} (hMem : token ∈ mode.finish) : token.position < position := by
  cases mode with
  | gap => exact absurd hMem List.not_mem_nil
  | comment => exact absurd hMem List.not_mem_nil
  | symbol start reversed =>
      rw [List.mem_singleton.mp hMem]
      exact hMode

theorem Mode.StartsBefore.step {position : Nat} {mode : Mode} (hMode : mode.StartsBefore position) (c : Char) :
    (∀ token ∈ (mode.step position c).1, token.position < position + 1) ∧
      (mode.step position c).2.StartsBefore (position + 1) := by
  have hNone : ∀ token ∈ ([] : List Token), token.position < position + 1 :=
    fun _ hMem => absurd hMem List.not_mem_nil
  cases mode with
  | comment =>
      refine ⟨hNone, ?_⟩
      rw [Mode.step]
      dsimp only
      split
      · trivial
      · trivial
  | gap =>
      rw [Mode.step]
      split
      · exact ⟨hNone, trivial⟩
      split
      · refine ⟨fun token hMem => ?_, trivial⟩
        rw [List.mem_singleton.mp hMem]
        exact Nat.lt_succ_self position
      split
      · exact ⟨hNone, trivial⟩
      · exact ⟨hNone, Nat.lt_succ_self position⟩
  | symbol start reversed =>
      have hFinish : ∀ token ∈ Mode.finish (.symbol start reversed), token.position < position + 1 :=
        fun token hMem => Nat.lt_succ_of_lt (hMode.finish hMem)
      rw [Mode.step]
      split
      · exact ⟨hFinish, trivial⟩
      split
      · refine ⟨fun token hMem => ?_, trivial⟩
        rcases List.mem_append.mp hMem with hSymbol | hParenthesis
        · exact hFinish token hSymbol
        · rw [List.mem_singleton.mp hParenthesis]
          exact Nat.lt_succ_self position
      · exact ⟨hNone, Nat.lt_succ_of_lt hMode⟩

/-- The tokens of a scan start before its end. -/
theorem position_lt_of_mem_scan {mode : Mode} {position : Nat} {cs : List Char}
    (hMode : mode.StartsBefore position) {token : Token} (hMem : token ∈ scan mode position cs) :
    token.position < position + cs.length := by
  induction cs generalizing mode position with
  | nil => exact hMode.finish hMem
  | cons c cs ih =>
      obtain ⟨hNow, hNext⟩ := hMode.step c
      rw [scan_cons] at hMem
      rw [List.length_cons]
      rcases List.mem_append.mp hMem with hStep | hRest
      · have hLess := hNow token hStep
        omega
      · have hLess := ih hNext hRest
        omega

/-- Every token of a text starts inside it. -/
theorem position_lt_length {text : String} {token : Token} (hMem : token ∈ ofText text) :
    token.position < text.length := by
  have hStart : Mode.gap.StartsBefore 0 := trivial
  have hLess := position_lt_of_mem_scan hStart hMem
  rwa [Nat.zero_add, String.length_toList] at hLess

end Token
end PlanLogic
