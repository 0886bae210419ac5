import PlanLogic.Proofs.Store.Databases
import PlanLogic.Store.Glob

/-!
# Patterns that end in a star

A pattern that ends in a star matches its own stem with anything after it, whatever bytes the stem consists of.
If the stem has no star and no question mark, the pattern matches nothing else.
-/

namespace PlanLogic
namespace Store

/-! ## Bytes of a text -/

theorem toList_loop_eq_append_drop (bytes : ByteArray) (index : Nat) (reversed : List UInt8) :
    ByteArray.toList.loop bytes index reversed = reversed.reverse ++ bytes.data.toList.drop index := by
  induction index, reversed using ByteArray.toList.loop.induct bytes with
  | case1 index reversed hIndex ih =>
      have hLength : index < bytes.data.toList.length := hIndex
      have hByte : bytes.get! index = bytes.data.toList[index] := getElem!_pos bytes.data index hIndex
      rw [ByteArray.toList.loop, if_pos hIndex, ih, List.reverse_cons, List.append_assoc, List.singleton_append,
        hByte, ← List.drop_eq_getElem_cons]
  | case2 index reversed hIndex =>
      have hLength : bytes.data.toList.length ≤ index := Nat.le_of_not_lt hIndex
      rw [ByteArray.toList.loop, if_neg hIndex, List.drop_eq_nil_of_le hLength, List.append_nil]

theorem utf8_eq_toList_data (text : String) : utf8 text = text.toByteArray.data.toList := by
  rw [utf8, String.toUTF8, ByteArray.toList, toList_loop_eq_append_drop]
  rfl

theorem utf8_append (text more : String) : utf8 (text ++ more) = utf8 text ++ utf8 more := by
  rw [utf8_eq_toList_data, utf8_eq_toList_data, utf8_eq_toList_data, String.toByteArray_append,
    ByteArray.toList_data_append]

/-! ## Matching -/

theorem mem_ends {tail key : List UInt8} : tail ∈ ends key ↔ tail <:+ key := by
  induction key with
  | nil => rw [ends, List.mem_singleton, List.suffix_nil]
  | cons byte key ih => rw [ends, List.mem_cons, ih, List.suffix_cons_iff]

theorem matchesBytes_star_cons (pattern key : List UInt8) :
    matchesBytes (starByte :: pattern) key = (ends key).any (matchesBytes pattern) := by
  unfold matchesBytes
  rw [if_pos rfl]

theorem matchesBytes_cons_nil {byte : UInt8} (hStar : byte ≠ starByte) (pattern : List UInt8) :
    matchesBytes (byte :: pattern) [] = false := by
  unfold matchesBytes
  rw [if_neg hStar]

theorem matchesBytes_cons_cons {byte : UInt8} (hStar : byte ≠ starByte) (pattern : List UInt8) (first : UInt8)
    (rest : List UInt8) : matchesBytes (byte :: pattern) (first :: rest) =
      ((byte == questionByte || byte == first) && matchesBytes pattern rest) := by
  rw [matchesBytes.eq_def]
  exact if_neg hStar

/-- A star at the end takes what is left. -/
theorem matchesBytes_star (key : List UInt8) : matchesBytes [starByte] key = true := by
  rw [matchesBytes_star_cons, List.any_eq_true]
  exact ⟨[], mem_ends.mpr List.nil_suffix, rfl⟩

/-- A stem is matched by itself, also where it has stars and question marks. -/
theorem matchesBytes_append_star (stem rest : List UInt8) :
    matchesBytes (stem ++ [starByte]) (stem ++ rest) = true := by
  induction stem with
  | nil => exact matchesBytes_star rest
  | cons byte stem ih =>
      rw [List.cons_append, List.cons_append]
      by_cases hStar : byte = starByte
      · rw [hStar, matchesBytes_star_cons, List.any_eq_true]
        exact ⟨stem ++ rest, mem_ends.mpr (List.suffix_cons _ _), ih⟩
      · rw [matchesBytes_cons_cons hStar, ih, beq_self_eq_true, Bool.or_true, Bool.and_true]

/-- A stem without stars and question marks is matched by nothing but the keys that begin with it. -/
theorem prefix_of_matchesBytes_append_star {stem : List UInt8} (hStem : starByte ∉ stem ∧ questionByte ∉ stem)
    {key : List UInt8} (hMatches : matchesBytes (stem ++ [starByte]) key = true) : stem <+: key := by
  induction stem generalizing key with
  | nil => exact List.nil_prefix
  | cons byte stem ih =>
      rw [List.mem_cons, List.mem_cons, not_or, not_or] at hStem
      obtain ⟨⟨hStar, hStars⟩, hQuestion, hQuestions⟩ := hStem
      rw [List.cons_append] at hMatches
      cases key with
      | nil =>
          rw [matchesBytes_cons_nil (Ne.symm hStar)] at hMatches
          exact absurd hMatches Bool.false_ne_true
      | cons first rest =>
          rw [matchesBytes_cons_cons (Ne.symm hStar), beq_eq_false_iff_ne.mpr (Ne.symm hQuestion), Bool.false_or,
            Bool.and_eq_true, beq_iff_eq] at hMatches
          obtain ⟨rfl, hRest⟩ := hMatches
          rw [List.prefix_cons_inj]
          exact ih ⟨hStars, hQuestions⟩ hRest

/-! ## Patterns of keys -/

theorem utf8_star : utf8 "*" = [starByte] := by
  rw [utf8_eq_toList_data]
  rfl

/-- A pattern that ends in a star matches its stem with anything after it. -/
theorem matchesKey_append_star (stem rest : String) : matchesKey (stem ++ "*") (stem ++ rest) = true := by
  rw [matchesKey, utf8_append, utf8_append, utf8_star]
  exact matchesBytes_append_star (utf8 stem) (utf8 rest)

/-- If its stem has no pattern characters, it matches exactly the keys that begin with the stem. -/
theorem matchesKey_append_star_iff {stem : String} (hStem : starByte ∉ utf8 stem ∧ questionByte ∉ utf8 stem)
    (key : String) : matchesKey (stem ++ "*") key = true ↔ utf8 stem <+: utf8 key := by
  rw [matchesKey, utf8_append, utf8_star]
  constructor
  · exact prefix_of_matchesBytes_append_star hStem
  · rintro ⟨rest, hRest⟩
    rw [← hRest]
    exact matchesBytes_append_star (utf8 stem) rest

end Store
end PlanLogic
