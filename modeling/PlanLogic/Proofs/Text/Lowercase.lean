import PlanLogic.Text.Lowercase
import Mathlib.Data.List.Basic

/-!
# Texts in lower case

A character is in lower case if the table gives no other form for it and no rule of its own changes it.  The
lower-case form of a text has only such characters, and a text of such characters is its own lower-case form.
-/

namespace PlanLogic
namespace Text

/-- The code points that have another form in lower case: those of the table, and the two with rules of their own. -/
def upperRuns : List LowerRun :=
  ⟨0x130, 0x130, 1, 0⟩ :: ⟨0x3A3, 0x3A3, 1, 0⟩ :: lowerRuns

/-- A character that has no other form in lower case. -/
def IsLower (c : Char) : Prop :=
  ∀ run ∈ upperRuns, run.contains c.toNat = false

instance (c : Char) : Decidable (IsLower c) :=
  decidable_of_iff ((upperRuns.all fun run => !run.contains c.toNat) = true) (by simp [IsLower])

/-! ## The table -/

namespace LowerRun

theorem contains_iff {run : LowerRun} {code : Nat} :
    run.contains code = true ↔ run.first ≤ code ∧ code ≤ run.last ∧ (code - run.first) % run.step = 0 := by
  simp [contains, and_assoc]

/-- A run of one code point. -/
theorem contains_single (code other : Nat) : (LowerRun.mk code code 1 0).contains other = true ↔ other = code := by
  rw [contains_iff]
  dsimp only
  omega

/-- Whether a run leads to characters only. -/
def isValid (run : LowerRun) : Bool :=
  decide (0 ≤ run.first + run.shift ∧ run.last + run.shift < 0xD800) ||
    decide (0xDFFF < run.first + run.shift ∧ run.last + run.shift < 0x110000)

/-- Whether a run lies before or after the code points from `first` to `last`, or between them if only every second
one is meant. -/
def avoids (first last : Nat) (everySecond : Bool) (run : LowerRun) : Bool :=
  Nat.blt last run.first || Nat.blt run.last first ||
    (everySecond && run.step == 2 && (first + run.first) % 2 == 1)

/-- Whether a run leads to code points that no run holds. -/
def isFinal (run : LowerRun) : Bool :=
  upperRuns.all (avoids (run.first + run.shift).toNat (run.last + run.shift).toNat
    (run.first == run.last || run.step == 2))

theorem isValidChar_of_isValid {run : LowerRun} (hValid : run.isValid = true) {code : Nat}
    (hCode : run.contains code = true) : 0 ≤ run.first + run.shift ∧ (code + run.shift).toNat.isValidChar := by
  obtain ⟨hFirst, hLast, -⟩ := contains_iff.mp hCode
  rw [isValid, Bool.or_eq_true, decide_eq_true_eq, decide_eq_true_eq] at hValid
  rw [Nat.isValidChar]
  omega

theorem contains_eq_false_of_isFinal {run other : LowerRun} (hFinal : run.isFinal = true) (hOther : other ∈ upperRuns)
    {code : Nat} (hCode : run.contains code = true) (hPositive : 0 ≤ run.first + run.shift) :
    other.contains (code + run.shift).toNat = false := by
  obtain ⟨hFirst, hLast, hStep⟩ := contains_iff.mp hCode
  have hAvoids := List.all_eq_true.mp hFinal other hOther
  simp only [avoids, Bool.or_eq_true, Bool.and_eq_true, beq_iff_eq, Nat.blt_eq] at hAvoids
  rw [Bool.eq_false_iff, Ne, contains_iff]
  rintro ⟨hOtherFirst, hOtherLast, hOtherStep⟩
  rcases hAvoids with (hBefore | hAfter) | ⟨⟨hSecond, hTwo⟩, hOdd⟩
  · omega
  · omega
  · rw [hTwo] at hOtherStep
    rcases hSecond with hSingle | hStepTwo
    · omega
    · rw [hStepTwo] at hStep
      omega

end LowerRun

/-- A second turn of the table changes nothing. -/
theorem isFinal_of_mem_lowerRuns : ∀ run ∈ lowerRuns, run.isValid = true ∧ run.isFinal = true := by
  decide +kernel

/-- The simple lower-case form of a character is in lower case, unless the character has a rule of its own. -/
theorem isLower_simpleLower {c : Char} (hSigma : c ≠ 'Σ') (hDotted : c ≠ 'İ') : IsLower (simpleLower c) := by
  rw [simpleLower]
  split
  · next run hRun =>
      have hCode := List.find?_some hRun
      obtain ⟨hValid, hFinal⟩ := isFinal_of_mem_lowerRuns run (List.mem_of_find?_eq_some hRun)
      obtain ⟨hPositive, hChar⟩ := LowerRun.isValidChar_of_isValid hValid hCode
      intro other hOther
      have hNat : (Char.ofNat (c.toNat + run.shift).toNat).toNat = (c.toNat + run.shift).toNat := by
        rw [Char.ofNat, dif_pos hChar]
        rfl
      rw [hNat]
      exact LowerRun.contains_eq_false_of_isFinal hFinal hOther hCode hPositive
  · next hNone =>
      refine List.forall_mem_cons.mpr ⟨?_, List.forall_mem_cons.mpr ⟨?_, fun run hMem => ?_⟩⟩
      · rw [Bool.eq_false_iff, Ne, LowerRun.contains_single]
        exact fun hCode => hDotted (Char.toNat_inj.mp hCode)
      · rw [Bool.eq_false_iff, Ne, LowerRun.contains_single]
        exact fun hCode => hSigma (Char.toNat_inj.mp hCode)
      · simpa using List.find?_eq_none.mp hNone run hMem

/-- The letters from `a` to `z` are in lower case. -/
theorem isLower_of_letter {c : Char} (hFirst : 'a' ≤ c) (hLast : c ≤ 'z') : IsLower c := by
  have hAvoids : (upperRuns.all fun run => Nat.blt run.last 'a'.toNat || Nat.blt 'z'.toNat run.first) = true := by
    decide +kernel
  have hFrom : 'a'.toNat ≤ c.toNat := hFirst
  have hTo : c.toNat ≤ 'z'.toNat := hLast
  intro run hRun
  have hApart := List.all_eq_true.mp hAvoids run hRun
  rw [Bool.or_eq_true, Nat.blt_eq, Nat.blt_eq] at hApart
  rw [Bool.eq_false_iff, Ne, LowerRun.contains_iff]
  omega

/-! ## Lower-case forms -/

/-- Characters of the lower-case form of a character are in lower case. -/
theorem isLower_of_mem_lowerAt {before after : List Char} {c d : Char} (hMem : d ∈ lowerAt before c after) :
    IsLower d := by
  rw [lowerAt] at hMem
  split at hMem
  · split at hMem
    · rw [List.mem_singleton.mp hMem]
      decide +kernel
    · rw [List.mem_singleton.mp hMem]
      decide +kernel
  next hSigma =>
  split at hMem
  · have hBoth : ['i', '\u0307'].all (fun e => decide (IsLower e)) = true := by decide +kernel
    exact of_decide_eq_true (List.all_eq_true.mp hBoth d hMem)
  · next hDotted =>
      rw [List.mem_singleton.mp hMem]
      exact isLower_simpleLower hSigma hDotted

/-- The lower-case form of a text is in lower case. -/
theorem isLower_of_mem_lowercase {cs : List Char} {c : Char} (hMem : c ∈ lowercase cs) : IsLower c := by
  rw [lowercase] at hMem
  generalize ([] : List Char) = before at hMem
  induction cs generalizing before with
  | nil => exact absurd hMem List.not_mem_nil
  | cons d cs ih =>
      rcases List.mem_append.mp hMem with hHere | hLater
      · exact isLower_of_mem_lowerAt hHere
      · exact ih (d :: before) hLater

theorem IsLower.lowerAt {c : Char} (hLower : IsLower c) (before after : List Char) :
    Text.lowerAt before c after = [c] := by
  have hOther (code : Nat) (hRun : ⟨code, code, 1, 0⟩ ∈ upperRuns) : c.toNat ≠ code := by
    rintro rfl
    have hNot := hLower _ hRun
    rw [Bool.eq_false_iff, Ne, LowerRun.contains_single] at hNot
    exact hNot rfl
  have hSigma : c ≠ 'Σ' := fun hSame => hOther 0x3A3 (by simp [upperRuns]) (hSame ▸ rfl)
  have hDotted : c ≠ 'İ' := fun hSame => hOther 0x130 (by simp [upperRuns]) (hSame ▸ rfl)
  have hNone : (lowerRuns.find? fun run => run.contains c.toNat) = none :=
    List.find?_eq_none.mpr fun run hMem => by
      rw [hLower run (List.mem_cons_of_mem _ (List.mem_cons_of_mem _ hMem))]
      exact Bool.false_ne_true
  rw [Text.lowerAt, if_neg hSigma, if_neg hDotted, simpleLower, hNone]

theorem lowerFrom_of_isLower {cs : List Char} (hLower : ∀ c ∈ cs, IsLower c) (before : List Char) :
    lowerFrom before cs = cs := by
  induction cs generalizing before with
  | nil => rfl
  | cons c cs ih =>
      rw [lowerFrom, (hLower c List.mem_cons_self).lowerAt, ih fun d hMem => hLower d (List.mem_cons_of_mem c hMem)]
      rfl

/-- A text in lower case is its own lower-case form. -/
theorem lowercase_of_isLower {cs : List Char} (hLower : ∀ c ∈ cs, IsLower c) : lowercase cs = cs :=
  lowerFrom_of_isLower hLower []

end Text
end PlanLogic
