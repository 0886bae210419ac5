import PlanLogic.Condition.Parser
import PlanLogic.Fact.Reading
import PlanLogic.Proofs.Printing.Lexemes
import PlanLogic.Proofs.Text.Words

/-!
# Texts of facts

A name that a text can hold is a run of characters of symbols.  The text of a fact made of such names is cut
into these names again, so facts with equal texts are equal; and a text that denotes a fact denotes one made of
such names.  Only a name that is refused keeps the text of a fact from denoting it.
-/

namespace PlanLogic

/-- A name that the text of a fact can hold: some characters, none of them blank or a parenthesis. -/
structure IsName (text : String) : Prop where
  nonempty : text.toList ≠ []
  chars : ∀ c ∈ text.toList, Token.isSymbolChar c = true

instance (text : String) : Decidable (IsName text) :=
  decidable_of_iff (text.toList ≠ [] ∧ text.toList.all Token.isSymbolChar = true)
    ⟨fun hText => ⟨hText.1, List.all_eq_true.mp hText.2⟩,
      fun hName => ⟨hName.nonempty, List.all_eq_true.mpr hName.chars⟩⟩

/-- A symbol of a condition is a name. -/
theorem IsName.of_isSymbol {text : String} (hSymbol : Token.IsSymbol text) : IsName text :=
  ⟨hSymbol.nonempty, hSymbol.chars⟩

theorem IsName.not_blank {text : String} (hName : IsName text) :
    ∀ c ∈ text.toList, Text.isBlank c = false :=
  fun c hMem => (Token.isSymbolChar_iff.mp (hName.chars c hMem)).1

theorem IsName.not_parenthesis {text : String} (hName : IsName text) :
    ∀ c ∈ text.toList, Token.isParenthesis c = false :=
  fun c hMem => (Token.isSymbolChar_iff.mp (hName.chars c hMem)).2

/-- A name starts with a character that is no blank. -/
theorem IsName.exists_cons {text : String} (hName : IsName text) :
    ∃ c cs, text.toList = c :: cs ∧ Text.isBlank c = false := by
  obtain ⟨c, cs, hText⟩ := List.exists_cons_of_ne_nil hName.nonempty
  exact ⟨c, cs, hText, hName.not_blank c (hText ▸ List.mem_cons_self)⟩

/-- The words of a text without parentheses are names. -/
theorem IsName.of_mem_words {cs : List Char} (hInside : ∀ c ∈ cs, Token.isParenthesis c = false) {name : String}
    (hMem : name.toList ∈ Text.words cs) : IsName name := by
  obtain ⟨hSome, hChars⟩ := Text.mem_words hMem
  exact ⟨hSome, fun c hIn => Token.isSymbolChar_iff.mpr ⟨(hChars c hIn).1, hInside c (hChars c hIn).2⟩⟩

namespace Fact

/-- A fact made of names. -/
structure Spelled (fact : Fact) : Prop where
  name : IsName fact.name
  args : ∀ arg ∈ fact.args, IsName arg

/-- A fact that a document can state. -/
structure Writable (fact : Fact) : Prop where
  spelled : fact.Spelled
  allowed : isRefusedName fact.name.toList = false

/-- What stands between the parentheses of the text of a fact. -/
def inner (fact : Fact) : List Char :=
  fact.name.toList ++ (fact.args.map String.toList).flatMap (' ' :: ·)

theorem toList_key (fact : Fact) : fact.key.toList = '(' :: (fact.inner ++ [')']) := by
  simp [key, inner, String.toList_join, List.flatMap_map]

variable {fact other : Fact}

theorem Spelled.not_parenthesis (hFact : fact.Spelled) : ∀ c ∈ fact.inner, Token.isParenthesis c = false := by
  intro c hMem
  rcases List.mem_append.mp hMem with hName | hArgs
  · exact hFact.name.not_parenthesis c hName
  · obtain ⟨arg, hArg, hIn⟩ := List.mem_flatMap.mp hArgs
    obtain ⟨text, hText, rfl⟩ := List.mem_map.mp hArg
    rcases List.mem_cons.mp hIn with rfl | hIn
    · decide
    · exact (hFact.args text hText).not_parenthesis c hIn

theorem Spelled.lineFeed_notMem_key (hFact : fact.Spelled) : '\n' ∉ fact.key.toList := by
  have hName {text : String} (hText : IsName text) : '\n' ∉ text.toList := fun hMem =>
    absurd (hText.not_blank '\n' hMem) (by decide)
  rw [toList_key, inner]
  simp only [List.mem_cons, List.mem_append, List.mem_flatMap, List.mem_map, List.not_mem_nil, or_false, not_or,
    not_exists, not_and, forall_exists_index, and_imp]
  refine ⟨by decide, ⟨hName hFact.name, ?_⟩, by decide⟩
  rintro _ arg hArg rfl
  exact ⟨by decide, hName (hFact.args arg hArg)⟩

theorem Spelled.words_inner (hFact : fact.Spelled) :
    Text.words fact.inner = fact.name.toList :: fact.args.map String.toList := by
  apply Text.words_spaced
  rw [List.forall_mem_cons]
  refine ⟨⟨hFact.name.nonempty, hFact.name.not_blank⟩, fun word hWord => ?_⟩
  obtain ⟨arg, hArg, rfl⟩ := List.mem_map.mp hWord
  exact ⟨(hFact.args arg hArg).nonempty, (hFact.args arg hArg).not_blank⟩

theorem enclosed?_enclosed (cs : List Char) : enclosed? ('(' :: (cs ++ [')'])) = some cs := by
  rw [enclosed?, List.getLast?_concat, if_pos rfl, List.dropLast_concat]

theorem enclosed?_eq_some_iff {cs inner : List Char} : enclosed? cs = some inner ↔ cs = '(' :: (inner ++ [')']) := by
  constructor
  · intro hEnclosed
    unfold enclosed? at hEnclosed
    split at hEnclosed
    · split at hEnclosed
      · next hLast =>
          obtain rfl := Option.some.inj hEnclosed
          rw [List.dropLast_append_getLast? ')' hLast]
      · exact absurd hEnclosed (Option.some_ne_none _).symm
    · exact absurd hEnclosed (Option.some_ne_none _).symm
  · rintro rfl
    exact enclosed?_enclosed inner

/-- The symbols of a text are the words between its parentheses. -/
theorem symbols?_eq_some_iff {cs : List Char} {symbols : List (List Char)} :
    symbols? cs = some symbols ↔
      ∃ inner, Text.strip cs = '(' :: (inner ++ [')']) ∧ (∀ c ∈ inner, Token.isParenthesis c = false) ∧
        Text.words inner = symbols := by
  rw [symbols?, Option.bind_eq_some_iff]
  refine exists_congr fun inner => and_congr enclosed?_eq_some_iff ?_
  cases hInside : inner.any Token.isParenthesis with
  | true =>
      obtain ⟨c, hMem, hParenthesis⟩ := List.any_eq_true.mp hInside
      simp only [if_true, reduceCtorEq, false_iff, not_and]
      intro hNone
      rw [hNone c hMem] at hParenthesis
      exact absurd hParenthesis Bool.false_ne_true
  | false =>
      rw [List.any_eq_false] at hInside
      rw [if_neg Bool.false_ne_true, Option.some.injEq]
      exact (and_iff_right fun c hMem => by simpa using hInside c hMem).symm

/-- The text of a fact is cut into its names. -/
theorem Spelled.symbols?_key (hFact : fact.Spelled) :
    symbols? fact.key.toList = some (fact.name.toList :: fact.args.map String.toList) := by
  refine symbols?_eq_some_iff.mpr ⟨fact.inner, ?_, hFact.not_parenthesis, hFact.words_inner⟩
  rw [toList_key, Text.strip_enclosed]

/-- Facts with equal texts are equal. -/
theorem key_injective (hFact : fact.Spelled) (hOther : other.Spelled) (hKey : fact.key = other.key) :
    fact = other := by
  have hSymbols := hFact.symbols?_key
  rw [hKey, hOther.symbols?_key, Option.some.injEq, List.cons.injEq] at hSymbols
  obtain ⟨hName, hArgs⟩ := hSymbols
  obtain ⟨name, args⟩ := fact
  obtain ⟨otherName, otherArgs⟩ := other
  obtain rfl := String.toList_inj.mp hName
  obtain rfl := List.map_injective_iff.mpr (fun _ _ hSame => String.toList_inj.mp hSame) hArgs
  rfl

/-- The names that are refused are the equality sign and the variables. -/
theorem isRefusedName_iff {name : String} :
    isRefusedName name.toList = true ↔ name = "=" ∨ isVariable name = true := by
  have hEquals : (name.toList == ['=']) = true ↔ name = "=" := by
    rw [beq_iff_eq, ← String.toList_inj]
    rfl
  rw [isRefusedName, Bool.or_eq_true, hEquals, or_comm, isVariable]

/-- A text whose symbols are the names of a fact denotes the fact, or is refused for its name. -/
theorem ofText_of_symbols {text : String}
    (hSymbols : symbols? text.toList = some (fact.name.toList :: fact.args.map String.toList)) :
    ofText text = if isRefusedName fact.name.toList then .error (.name fact.name) else .ok fact := by
  have hArgs : (fact.args.map String.toList).map String.ofList = fact.args := by
    rw [List.map_map]
    exact List.map_id'' (fun _ => String.ofList_toList) fact.args
  rw [ofText, hSymbols]
  simp only [String.ofList_toList, hArgs]

/-- A text whose symbols are the names of no fact is refused as no fact. -/
theorem ofText_of_no_symbols {text : String}
    (hNone : ∀ fact : Fact, symbols? text.toList ≠ some (fact.name.toList :: fact.args.map String.toList)) :
    ofText text = .error (.notFact text) := by
  rw [ofText]
  split
  · rfl
  · rfl
  · next name args hSymbols =>
      have hArgs : (args.map String.ofList).map String.toList = args := by
        rw [List.map_map]
        exact List.map_id'' (fun _ => String.toList_ofList) args
      refine absurd ?_ (hNone ⟨String.ofList name, args.map String.ofList⟩)
      rw [hSymbols, String.toList_ofList, hArgs]

/-- A text denotes a fact if its symbols are the names of the fact. -/
theorem ofText_eq_ok_iff {text : String} :
    ofText text = .ok fact ↔
      symbols? text.toList = some (fact.name.toList :: fact.args.map String.toList) ∧
        isRefusedName fact.name.toList = false := by
  constructor
  · intro hText
    by_cases hSome : ∃ found : Fact, symbols? text.toList = some (found.name.toList :: found.args.map String.toList)
    · obtain ⟨found, hSymbols⟩ := hSome
      rw [ofText_of_symbols hSymbols] at hText
      split at hText
      · exact absurd hText (by simp)
      · next hAllowed =>
          obtain rfl := Except.ok.inj hText
          exact ⟨hSymbols, by simpa using hAllowed⟩
    · rw [ofText_of_no_symbols (not_exists.mp hSome)] at hText
      exact absurd hText (by simp)
  · rintro ⟨hSymbols, hAllowed⟩
    rw [ofText_of_symbols hSymbols, hAllowed, if_neg Bool.false_ne_true]

/-- The text of a fact denotes the fact. -/
theorem Writable.ofText_key (hFact : fact.Writable) : ofText fact.key = .ok fact :=
  ofText_eq_ok_iff.mpr ⟨hFact.spelled.symbols?_key, hFact.allowed⟩

/-- A text denotes only facts that a document can state. -/
theorem writable_of_ofText {text : String} (hText : ofText text = .ok fact) : fact.Writable := by
  obtain ⟨hSymbols, hAllowed⟩ := ofText_eq_ok_iff.mp hText
  obtain ⟨inner, -, hInside, hWords⟩ := symbols?_eq_some_iff.mp hSymbols
  have hName {name : String} (hMem : name.toList ∈ Text.words inner) := IsName.of_mem_words hInside hMem
  rw [hWords] at hName
  exact ⟨⟨hName List.mem_cons_self, fun arg hArg => hName (List.mem_cons_of_mem _ (List.mem_map_of_mem hArg))⟩,
    hAllowed⟩

end Fact
end PlanLogic
