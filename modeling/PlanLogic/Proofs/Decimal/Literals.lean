import PlanLogic.Proofs.Decimal.Digits

/-!
# The grammar of literals

A literal is a sign or none, digits with at most one point among them, and a power or none.  The relations below say
so without a reader, and also which decimal a literal stands for.  The reader of literals takes exactly those texts,
and its value for a literal is that decimal, rounded.
-/

namespace PlanLogic
namespace Decimal

open Text

/-- A run of digit characters with their values. -/
def IsRun (run : List Char) (places : List Nat) : Prop :=
  run.map digitValue? = places.map some

/-- A sign, or none, and whether it is a minus. -/
inductive IsSign : List Char → Bool → Prop
  | none : IsSign [] false
  | plus : IsSign ['+'] false
  | minus : IsSign ['-'] true

/-- Digits before and after a point.  The point may be left out with nothing after it, and one of the two runs may be
empty. -/
inductive IsMantissa : List Char → List Nat → List Nat → Prop
  | whole {run : List Char} {places : List Nat} (hRun : IsRun run places) (hSome : places ≠ []) :
      IsMantissa run places []
  | pointed {front back : List Char} {whole fraction : List Nat} (hFront : IsRun front whole)
      (hBack : IsRun back fraction) (hSome : whole ≠ [] ∨ fraction ≠ []) :
      IsMantissa (front ++ '.' :: back) whole fraction

/-- A power of ten, or none, and its exponent. -/
inductive IsPower : List Char → Int → Prop
  | none : IsPower [] 0
  | some {mark : Char} {sign run : List Char} {negative : Bool} {places : List Nat} (hMark : mark = 'e' ∨ mark = 'E')
      (hSign : IsSign sign negative) (hRun : IsRun run places) (hSome : places ≠ []) :
      IsPower (mark :: (sign ++ run)) (if negative then -(positional 0 places : Int) else positional 0 places)

/-- A literal without a sign, and the decimal that it stands for. -/
inductive IsUnsigned : List Char → Scaled → Prop
  | mk {mantissa power : List Char} {whole fraction : List Nat} {exponent : Int}
      (hMantissa : IsMantissa mantissa whole fraction) (hPower : IsPower power exponent) :
      IsUnsigned (mantissa ++ power) ⟨positional 0 (whole ++ fraction), exponent - fraction.length⟩

/-- A literal, whether it has a minus, and the decimal that the rest of it stands for.  One line feed may stand at
the end. -/
inductive IsLiteral : List Char → Bool → Scaled → Prop
  | mk {sign cs : List Char} {negative : Bool} {s : Scaled} (hSign : IsSign sign negative)
      (hUnsigned : IsUnsigned cs s) : IsLiteral (sign ++ cs) negative s
  | lineFeed {sign cs : List Char} {negative : Bool} {s : Scaled} (hSign : IsSign sign negative)
      (hUnsigned : IsUnsigned cs s) : IsLiteral (sign ++ cs ++ ['\n']) negative s

/-! ## Runs of digits -/

theorem IsRun.cons {c : Char} {digit : Nat} {run : List Char} {places : List Nat} (hDigit : digitValue? c = some digit)
    (hRun : IsRun run places) : IsRun (c :: run) (digit :: places) := by
  rw [IsRun, List.map_cons, List.map_cons, hDigit, hRun]

/-- A run with a digit starts with one. -/
theorem IsRun.exists_cons {run : List Char} {places : List Nat} (hRun : IsRun run places) (hSome : places ≠ []) :
    ∃ c cs digit, run = c :: cs ∧ digitValue? c = some digit := by
  cases places with
  | nil => exact absurd rfl hSome
  | cons digit places =>
      cases run with
      | nil => exact absurd hRun.symm (List.cons_ne_nil _ _)
      | cons c cs => exact ⟨c, cs, digit, rfl, (List.cons.inj hRun).1⟩

/-- What is taken from the start of a text is a run, and no digit comes after it. -/
theorem takeDigits_spec (cs : List Char) : ∃ run, cs = run ++ (takeDigits cs).2 ∧ IsRun run (takeDigits cs).1 ∧
    takeDigits (takeDigits cs).2 = ([], (takeDigits cs).2) := by
  induction cs with
  | nil => exact ⟨[], rfl, rfl, rfl⟩
  | cons c cs ih =>
      rw [takeDigits]
      cases hDigit : digitValue? c with
      | none => exact ⟨[], rfl, rfl, by rw [takeDigits, hDigit]⟩
      | some digit =>
          obtain ⟨run, hSplit, hRun, hRest⟩ := ih
          exact ⟨c :: run, congrArg (c :: ·) hSplit, hRun.cons hDigit, hRest⟩

/-! ## Signs -/

theorem takeSign_spec (cs : List Char) : ∃ sign, cs = sign ++ (takeSign cs).2 ∧ IsSign sign (takeSign cs).1 := by
  unfold takeSign
  split
  · exact ⟨_, rfl, .minus⟩
  · exact ⟨_, rfl, .plus⟩
  · exact ⟨[], rfl, .none⟩

/-- A sign is taken from before what does not start with one. -/
theorem takeSign_append {sign cs : List Char} {negative : Bool} (hSign : IsSign sign negative)
    (hOther : takeSign cs = (false, cs)) : takeSign (sign ++ cs) = (negative, cs) := by
  cases hSign with
  | none => exact hOther
  | plus => rfl
  | minus => rfl

theorem IsRun.takeSign {run : List Char} {places : List Nat} (hRun : IsRun run places) (hSome : places ≠ [])
    (rest : List Char) : takeSign (run ++ rest) = (false, run ++ rest) := by
  obtain ⟨c, cs, digit, rfl, hDigit⟩ := hRun.exists_cons hSome
  have hNone (other : Char) (hOther : digitValue? other = none) : c ≠ other := by
    rintro rfl
    exact absurd (hDigit.symm.trans hOther) (Option.some_ne_none _)
  exact takeSign_of_ne (hNone '-' (by decide)) (hNone '+' (by decide)) _

theorem IsMantissa.takeSign {mantissa : List Char} {whole fraction : List Nat}
    (hMantissa : IsMantissa mantissa whole fraction) (rest : List Char) :
    takeSign (mantissa ++ rest) = (false, mantissa ++ rest) := by
  cases hMantissa with
  | whole hRun hSome => exact hRun.takeSign hSome rest
  | @pointed front back _ _ hFront _ _ =>
      rw [List.append_assoc]
      cases whole with
      | nil =>
          rw [List.map_eq_nil_iff.mp hFront]
          exact takeSign_of_ne (by decide) (by decide) _
      | cons digit whole => exact hFront.takeSign (List.cons_ne_nil _ _) _

/-! ## Powers -/

/-- Exactly the powers are read as exponents. -/
theorem exponent?_eq_some_iff {cs : List Char} {exponent : Int} :
    exponent? cs = some exponent ↔ IsPower cs exponent := by
  constructor
  · intro hRead
    cases cs with
    | nil =>
        obtain rfl := Option.some.inj hRead
        exact .none
    | cons mark cs =>
        rw [exponent?] at hRead
        split at hRead
        · next hMark =>
            obtain ⟨sign, hSplit, hSign⟩ := takeSign_spec cs
            obtain ⟨run, hDigits, hRun, -⟩ := takeDigits_spec (takeSign cs).2
            rw [hSplit]
            generalize takeSign cs = signed at *
            dsimp only at hRead
            split at hRead
            · next digit more hTaken =>
                obtain rfl := Option.some.inj hRead
                rw [hTaken] at hDigits hRun
                rw [List.append_nil] at hDigits
                rw [hDigits]
                exact .some hMark hSign hRun (List.cons_ne_nil _ _)
            · exact absurd hRead (Option.some_ne_none _).symm
        · exact absurd hRead (Option.some_ne_none _).symm
  · intro hPower
    cases hPower with
    | none => rfl
    | @some mark sign run negative places hMark hSign hRun hSome =>
        have hOther := hRun.takeSign hSome []
        have hTaken := takeDigits_append hRun (show takeDigits [] = ([], []) from rfl)
        rw [List.append_nil] at hOther hTaken
        rw [exponent?, if_pos hMark, takeSign_append hSign hOther]
        dsimp only
        rw [hTaken]
        cases places with
        | nil => exact absurd rfl hSome
        | cons digit more => rfl

/-- A power starts with no digit and no point. -/
theorem IsPower.takeDigits {power : List Char} {exponent : Int} (hPower : IsPower power exponent) :
    takeDigits power = ([], power) ∧ takeFraction power = ([], power) := by
  cases hPower with
  | none => exact ⟨rfl, rfl⟩
  | some hMark _ _ _ =>
      rcases hMark with rfl | rfl
      · exact ⟨by rw [Decimal.takeDigits, show digitValue? 'e' = .none by decide], rfl⟩
      · exact ⟨by rw [Decimal.takeDigits, show digitValue? 'E' = .none by decide], rfl⟩

/-! ## Literals -/

/-- What is taken as a fraction is a point and a run, or nothing. -/
theorem takeFraction_spec (cs : List Char) :
    (∃ back, cs = '.' :: (back ++ (takeFraction cs).2) ∧ IsRun back (takeFraction cs).1) ∨
      takeFraction cs = ([], cs) := by
  unfold takeFraction
  split
  · next rest =>
      obtain ⟨back, hBack, hRun, -⟩ := takeDigits_spec rest
      exact .inl ⟨back, congrArg ('.' :: ·) hBack, hRun⟩
  · exact .inr rfl

/-- Taking digits and then a fraction takes a mantissa, if there is a digit. -/
theorem exists_isMantissa (cs : List Char)
    (hSome : (takeDigits cs).1 ≠ [] ∨ (takeFraction (takeDigits cs).2).1 ≠ []) :
    ∃ mantissa, cs = mantissa ++ (takeFraction (takeDigits cs).2).2 ∧
      IsMantissa mantissa (takeDigits cs).1 (takeFraction (takeDigits cs).2).1 := by
  obtain ⟨front, hFront, hWhole, -⟩ := takeDigits_spec cs
  rcases takeFraction_spec (takeDigits cs).2 with ⟨back, hBack, hFraction⟩ | hNone
  · refine ⟨front ++ '.' :: back, ?_, .pointed hWhole hFraction hSome⟩
    rw [List.append_assoc, List.cons_append, ← hBack]
    exact hFront
  · rw [hNone] at hSome ⊢
    exact ⟨front, hFront, .whole hWhole (hSome.resolve_right fun hOther => hOther rfl)⟩

/-- A mantissa before a power is taken as its digits and its fraction. -/
theorem IsMantissa.take {mantissa power : List Char} {whole fraction : List Nat} {exponent : Int}
    (hMantissa : IsMantissa mantissa whole fraction) (hPower : IsPower power exponent) :
    (takeDigits (mantissa ++ power)).1 = whole ∧
      takeFraction (takeDigits (mantissa ++ power)).2 = (fraction, power) := by
  obtain ⟨hDigits, hPoint⟩ := hPower.takeDigits
  cases hMantissa with
  | whole hRun _ =>
      rw [takeDigits_append hRun hDigits]
      exact ⟨rfl, hPoint⟩
  | @pointed front back _ _ hFront hBack _ =>
      have hRest : takeDigits ('.' :: (back ++ power)) = ([], '.' :: (back ++ power)) := takeDigits_point _
      rw [List.append_assoc, List.cons_append, takeDigits_append hFront hRest]
      exact ⟨rfl, takeDigits_append hBack hDigits⟩

theorem IsMantissa.nonempty {mantissa : List Char} {whole fraction : List Nat}
    (hMantissa : IsMantissa mantissa whole fraction) : whole ≠ [] ∨ fraction ≠ [] := by
  cases hMantissa with
  | whole _ hSome => exact .inl hSome
  | pointed _ _ hSome => exact hSome

/-- Exactly the literals without a sign are read as such, each as the decimal that it stands for. -/
theorem unsigned?_eq_some_iff {cs : List Char} {s : Scaled} : unsigned? cs = some s ↔ IsUnsigned cs s := by
  have hEmpty (whole fraction : List Nat) :
      (whole.isEmpty && fraction.isEmpty) = false ↔ whole ≠ [] ∨ fraction ≠ [] := by
    rw [Bool.and_eq_false_iff, List.isEmpty_eq_false_iff, List.isEmpty_eq_false_iff]
  constructor
  · intro hRead
    rw [unsigned?] at hRead
    split at hRead
    · exact absurd hRead (Option.some_ne_none _).symm
    · next hSome =>
        rw [Bool.not_eq_true, hEmpty] at hSome
        obtain ⟨mantissa, hSplit, hMantissa⟩ := exists_isMantissa cs hSome
        obtain ⟨exponent, hExponent, rfl⟩ := Option.map_eq_some_iff.mp hRead
        have hLiteral := IsUnsigned.mk hMantissa (exponent?_eq_some_iff.mp hExponent)
        rwa [← hSplit] at hLiteral
  · rintro ⟨hMantissa, hPower⟩
    obtain ⟨hWhole, hFraction⟩ := hMantissa.take hPower
    rw [unsigned?, hWhole, hFraction, (hEmpty _ _).mpr hMantissa.nonempty, if_neg Bool.false_ne_true,
      exponent?_eq_some_iff.mpr hPower, Option.map_some]

/-! ## A line feed at the end -/

theorem dropLineFeed_concat (cs : List Char) : dropLineFeed (cs ++ ['\n']) = cs := by
  rw [dropLineFeed, if_pos List.getLast?_concat, List.dropLast_concat]

theorem dropLineFeed_spec (cs : List Char) : cs = dropLineFeed cs ∨ cs = dropLineFeed cs ++ ['\n'] := by
  rw [dropLineFeed]
  split
  · next hLast =>
      obtain ⟨front, rfl⟩ := List.getLast?_eq_some_iff.mp hLast
      exact .inr (by rw [List.dropLast_concat])
  · exact .inl rfl

theorem IsRun.lineFeed_notMem {run : List Char} {places : List Nat} (hRun : IsRun run places) : '\n' ∉ run := by
  intro hMem
  have hNone : none ∈ places.map some := by
    rw [← hRun]
    exact List.mem_map.mpr ⟨_, hMem, by decide⟩
  obtain ⟨place, -, hPlace⟩ := List.mem_map.mp hNone
  exact absurd hPlace (Option.some_ne_none place)

theorem IsSign.lineFeed_notMem {sign : List Char} {negative : Bool} (hSign : IsSign sign negative) : '\n' ∉ sign := by
  cases hSign <;> decide

theorem IsUnsigned.lineFeed_notMem {cs : List Char} {s : Scaled} (hUnsigned : IsUnsigned cs s) : '\n' ∉ cs := by
  obtain ⟨hMantissa, hPower⟩ := hUnsigned
  rw [List.mem_append, not_or]
  constructor
  · cases hMantissa with
    | whole hRun _ => exact hRun.lineFeed_notMem
    | pointed hFront hBack _ => simp [hFront.lineFeed_notMem, hBack.lineFeed_notMem]
  · cases hPower with
    | none => exact List.not_mem_nil
    | some hMark hSign hRun _ => rcases hMark with rfl | rfl <;> simp [hSign.lineFeed_notMem, hRun.lineFeed_notMem]

/-- What is left of a literal when a line feed at its end is dropped. -/
theorem isLiteral_iff {cs : List Char} {negative : Bool} {s : Scaled} :
    IsLiteral cs negative s ↔
      ∃ sign rest, dropLineFeed cs = sign ++ rest ∧ IsSign sign negative ∧ IsUnsigned rest s := by
  constructor
  · rintro (⟨hSign, hUnsigned⟩ | ⟨hSign, hUnsigned⟩)
    · have hNone := And.intro hSign.lineFeed_notMem hUnsigned.lineFeed_notMem
      exact ⟨_, _, dropLineFeed_of_notMem (by simpa using hNone), hSign, hUnsigned⟩
    · exact ⟨_, _, dropLineFeed_concat _, hSign, hUnsigned⟩
  · rintro ⟨sign, rest, hSplit, hSign, hUnsigned⟩
    rcases dropLineFeed_spec cs with hSame | hMore
    · rw [hSame, hSplit]
      exact .mk hSign hUnsigned
    · rw [hMore, hSplit]
      exact .lineFeed hSign hUnsigned

/-- Exactly the literals are read as numbers, each as the rounded decimal that it stands for. -/
theorem literal?_eq_some_iff {cs : List Char} {value : Float} :
    literal? cs = some value ↔ ∃ negative s, IsLiteral cs negative s ∧ (nearest negative s).toFloat = value := by
  constructor
  · intro hRead
    obtain ⟨s, hUnsigned, rfl⟩ := Option.map_eq_some_iff.mp hRead
    obtain ⟨sign, hSplit, hSign⟩ := takeSign_spec (dropLineFeed cs)
    exact ⟨_, s, isLiteral_iff.mpr ⟨sign, _, hSplit, hSign, unsigned?_eq_some_iff.mp hUnsigned⟩, rfl⟩
  · rintro ⟨negative, s, hLiteral, rfl⟩
    obtain ⟨sign, rest, hSplit, hSign, hUnsigned⟩ := isLiteral_iff.mp hLiteral
    have hOther : ∀ {cs : List Char} {s : Scaled}, IsUnsigned cs s → takeSign cs = (false, cs) := by
      rintro _ _ ⟨hMantissa, -⟩
      exact hMantissa.takeSign _
    rw [literal?, hSplit, takeSign_append hSign (hOther hUnsigned), unsigned?_eq_some_iff.mpr hUnsigned,
      Option.map_some]

/-- No literal is read as anything else than a number. -/
theorem literal?_eq_none_iff {cs : List Char} : literal? cs = none ↔ ∀ negative s, ¬ IsLiteral cs negative s := by
  rw [Option.eq_none_iff_forall_ne_some]
  constructor
  · exact fun hNone negative s hLiteral => hNone _ (literal?_eq_some_iff.mpr ⟨negative, s, hLiteral, rfl⟩)
  · intro hNone value hRead
    obtain ⟨negative, s, hLiteral, -⟩ := literal?_eq_some_iff.mp hRead
    exact hNone negative s hLiteral

/-- The first character of a literal is a sign, a point or a digit. -/
theorem IsLiteral.exists_cons {cs : List Char} {negative : Bool} {s : Scaled} (hLiteral : IsLiteral cs negative s) :
    ∃ c rest, cs = c :: rest ∧ (c ∈ ['+', '-', '.'] ∨ isDigit c = true) := by
  have hRun {run : List Char} {places : List Nat} (hRun : IsRun run places) (hSome : places ≠ []) (rest : List Char) :
      ∃ c cs, run ++ rest = c :: cs ∧ (c ∈ ['+', '-', '.'] ∨ isDigit c = true) := by
    obtain ⟨c, cs, digit, rfl, hDigit⟩ := hRun.exists_cons hSome
    exact ⟨c, _, rfl, .inr (by rw [isDigit, hDigit]; rfl)⟩
  have hStart {sign cs : List Char} (hSign : IsSign sign negative) (hUnsigned : IsUnsigned cs s) :
      ∃ c rest, sign ++ cs = c :: rest ∧ (c ∈ ['+', '-', '.'] ∨ isDigit c = true) := by
    obtain @⟨_, _, whole, _, _, hMantissa, -⟩ := hUnsigned
    cases hSign with
    | plus => exact ⟨_, _, rfl, .inl (by decide)⟩
    | minus => exact ⟨_, _, rfl, .inl (by decide)⟩
    | none =>
        cases hMantissa with
        | whole hWhole hSome => exact hRun hWhole hSome _
        | pointed hFront _ _ =>
            cases whole with
            | nil =>
                rw [List.map_eq_nil_iff.mp hFront]
                exact ⟨_, _, rfl, .inl (by decide)⟩
            | cons digit whole =>
                rw [List.nil_append, List.append_assoc]
                exact hRun hFront (List.cons_ne_nil _ _) _
  rcases hLiteral with ⟨hSign, hUnsigned⟩ | ⟨hSign, hUnsigned⟩
  · exact hStart hSign hUnsigned
  · obtain ⟨c, rest, hSplit, hFirst⟩ := hStart hSign hUnsigned
    exact ⟨c, rest ++ ['\n'], by rw [hSplit, List.cons_append], hFirst⟩

end Decimal
end PlanLogic
