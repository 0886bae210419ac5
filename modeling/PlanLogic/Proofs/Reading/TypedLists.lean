import PlanLogic.Proofs.Reading.Expressions

/-!
# Readers of typed lists

The reader of a typed list collects names until a dash gives them a type, and stops before the token that
ends the list.  Together with the closing parenthesis it reads exactly the typed lists of the grammar, and the
reader of quantified variables reads those of them in which every name is a variable.
-/

namespace PlanLogic
namespace Reading

theorem isNoTypeName_iff {text : String} :
    Scope.isNoTypeName text = false ↔ text ≠ "(" ∧ text ≠ ")" ∧ text ≠ "-" := by
  simp only [Scope.isNoTypeName, Bool.or_eq_false_iff, beq_eq_false_iff_ne, and_assoc]

/-- The names before the first dash are determined by the whole list. -/
theorem names_before_dash {names pending left right : List String} (hNames : "-" ∉ names)
    (hPending : "-" ∉ pending) (hSame : names ++ "-" :: left = pending ++ "-" :: right) :
    names = pending ∧ left = right := by
  induction names generalizing pending with
  | nil =>
      cases pending with
      | nil => exact ⟨rfl, (List.cons.inj hSame).2⟩
      | cons name pending =>
          obtain ⟨rfl, -⟩ := List.cons.inj hSame
          exact absurd (List.mem_cons_self) hPending
  | cons name names ih =>
      cases pending with
      | nil =>
          obtain ⟨rfl, -⟩ := List.cons.inj hSame
          exact absurd (List.mem_cons_self) hNames
      | cons other pending =>
          obtain ⟨rfl, hTail⟩ := List.cons.inj hSame
          obtain ⟨rfl, rfl⟩ := ih (fun hMem => hNames (List.mem_cons_of_mem _ hMem))
            (fun hMem => hPending (List.mem_cons_of_mem _ hMem)) hTail
          exact ⟨rfl, rfl⟩

theorem dash_notMem {names : List String} (hNames : ∀ name ∈ names, Scope.isNoTypeName name = false) :
    "-" ∉ names := fun hMem => (isNoTypeName_iff.mp (hNames _ hMem)).2.2 rfl

/-- A typed list holds no parentheses. -/
theorem declares_noParenthesis {words : List String} {bindings : List Binding}
    (hDeclares : Declares words bindings) {text : String} (hMem : text ∈ words) :
    text ≠ "(" ∧ text ≠ ")" := by
  induction hDeclares with
  | untyped hNames =>
      obtain ⟨hOpen, hClose, -⟩ := isNoTypeName_iff.mp (hNames _ hMem)
      exact ⟨hOpen, hClose⟩
  | typed hSome hNames hType hRest ih =>
      simp only [List.mem_append, List.mem_cons] at hMem
      obtain hName | rfl | rfl | hWord := hMem
      · obtain ⟨hOpen, hClose, -⟩ := isNoTypeName_iff.mp (hNames _ hName)
        exact ⟨hOpen, hClose⟩
      · exact ⟨by decide, by decide⟩
      · obtain ⟨hOpen, hClose, -⟩ := isNoTypeName_iff.mp hType
        exact ⟨hOpen, hClose⟩
      · exact ih hWord

/-- Without a dash, all names have the default type. -/
theorem declares_names_iff {names : List String} {bindings : List Binding}
    (hNames : ∀ name ∈ names, Scope.isNoTypeName name = false) :
    Declares names bindings ↔ bindings = names.map (⟨·, Binding.defaultType⟩) := by
  constructor
  · intro hDeclares
    cases hDeclares with
    | untyped => rfl
    | typed => exact absurd (by simp) (dash_notMem hNames)
  · rintro rfl
    exact .untyped hNames

/-- A dash gives the names before it the type after it. -/
theorem declares_dash_iff {names words : List String} {bindings : List Binding}
    (hNames : ∀ name ∈ names, Scope.isNoTypeName name = false) :
    Declares (names ++ "-" :: words) bindings ↔
      ∃ type rest more, words = type :: rest ∧ names ≠ [] ∧ Scope.isNoTypeName type = false ∧
        Declares rest more ∧ bindings = names.map (⟨·, type⟩) ++ more := by
  constructor
  · intro hDeclares
    generalize hWords : names ++ "-" :: words = all at hDeclares
    cases hDeclares with
    | untyped hAll => exact absurd (hWords ▸ by simp) (dash_notMem hAll)
    | typed hSome hOther hType hRest =>
        obtain ⟨rfl, rfl⟩ := names_before_dash (dash_notMem hNames) (dash_notMem hOther) hWords
        exact ⟨_, _, _, rfl, hSome, hType, hRest, rfl⟩
  · rintro ⟨type, rest, more, rfl, hSome, hType, hRest, rfl⟩
    exact .typed hSome hNames hType hRest

/-- The words of a typed list that goes on from pending names, with the closing parenthesis. -/
def declaresAfter (pending : List String) : Language (List Binding) :=
  Language.closed fun words bindings => Declares (pending ++ words) bindings

theorem declaresAfter_close_iff {pending words : List String} {bindings : List Binding}
    (hPending : ∀ name ∈ pending, Scope.isNoTypeName name = false) :
    declaresAfter pending (")" :: words) bindings ↔
      words = [] ∧ bindings = pending.map (⟨·, Binding.defaultType⟩) := by
  constructor
  · rintro ⟨front, hWords, hDeclares⟩
    cases front with
    | nil =>
        obtain ⟨-, rfl⟩ := List.cons.inj hWords
        rw [List.append_nil, declares_names_iff hPending] at hDeclares
        exact ⟨rfl, hDeclares⟩
    | cons text front =>
        obtain ⟨rfl, -⟩ := List.cons.inj hWords
        exact absurd rfl (declares_noParenthesis hDeclares (by simp)).2
  · rintro ⟨rfl, rfl⟩
    exact ⟨[], rfl, by simpa using (declares_names_iff hPending).mpr rfl⟩

theorem declaresAfter_cons_iff {pending words : List String} {text : String} {bindings : List Binding}
    (hClose : text ≠ ")") :
    declaresAfter pending (text :: words) bindings ↔ declaresAfter (pending ++ [text]) words bindings := by
  constructor
  · rintro ⟨front, hWords, hDeclares⟩
    cases front with
    | nil => exact absurd (List.cons.inj hWords).1 hClose
    | cons first front =>
        obtain ⟨rfl, rfl⟩ := List.cons.inj hWords
        exact ⟨front, rfl, by simpa using hDeclares⟩
  · rintro ⟨front, rfl, hDeclares⟩
    exact ⟨text :: front, rfl, by simpa using hDeclares⟩

theorem declaresAfter_dash_iff {pending words : List String} {bindings : List Binding}
    (hPending : ∀ name ∈ pending, Scope.isNoTypeName name = false) :
    declaresAfter pending ("-" :: words) bindings ↔
      ∃ type rest more, words = type :: rest ∧ pending ≠ [] ∧ Scope.isNoTypeName type = false ∧
        declaresAfter [] rest more ∧ bindings = pending.map (⟨·, type⟩) ++ more := by
  constructor
  · rintro ⟨front, hWords, hDeclares⟩
    cases front with
    | nil => simp at hWords
    | cons first front =>
        obtain ⟨rfl, rfl⟩ := List.cons.inj hWords
        obtain ⟨type, rest, more, rfl, hSome, hType, hRest, rfl⟩ :=
          (declares_dash_iff hPending).mp hDeclares
        exact ⟨type, rest ++ [")"], more, rfl, hSome, hType, ⟨rest, rfl, hRest⟩, rfl⟩
  · rintro ⟨type, _, more, rfl, hSome, hType, ⟨rest, rfl, hRest⟩, rfl⟩
    exact ⟨"-" :: type :: rest, rfl, .typed hSome hPending hType hRest⟩

/-- The rest of a typed list and the closing parenthesis after it. -/
def readDeclarations (pending : List String) : Reading (List Binding) := do
  let bindings ← Scope.readTypedListFrom (some ")") pending
  expect ")"
  return bindings

/-- The rest of a typed list after a dash. -/
def readType (pending : List String) : Reading (List Binding) := do
  let type ← next
  if Scope.isNoTypeName type then
    refuse (.typeName type)
  else if pending.isEmpty then
    refuse (.typeWithoutNames type)
  else
    let more ← readDeclarations []
    return pending.map (⟨·, type⟩) ++ more

theorem readDeclarations_nil (pending : List String) :
    readDeclarations pending [] = .error (.expected ")" none) [] :=
  rfl

theorem readDeclarations_cons (pending : List String) (token : Token) (tokens : List Token) :
    readDeclarations pending (token :: tokens) =
      if token.text = ")" then
        .ok (pending.map (⟨·, Binding.defaultType⟩)) tokens
      else if token.text = "-" then
        readType pending tokens
      else if token.text = "(" then
        .error (.typedListParenthesis token.text) tokens
      else
        readDeclarations (pending ++ [token.text]) tokens := by
  obtain ⟨text, position⟩ := token
  have hFirst := Scope.readTypedListFrom.eq_def (some ")") pending (⟨text, position⟩ :: tokens)
  by_cases hClose : text = ")"
  · subst hClose
    simp [readDeclarations, bind, EStateM.bind, hFirst, expect, pure, EStateM.pure]
  by_cases hDash : text = "-"
  · subst hDash
    cases tokens with
    | nil => simp [readDeclarations, readType, bind, EStateM.bind, hFirst, next]
    | cons type tokens =>
        simp only [readDeclarations, readType, bind, EStateM.bind, next, hFirst]
        by_cases hType : Scope.isNoTypeName type.text = true
        · simp [hType, refuse]
        by_cases hSome : pending.isEmpty = true
        · simp [hType, hSome, refuse]
        cases hRest : Scope.readTypedListFrom (some ")") [] tokens with
        | error cause rest => simp [hType, hSome, hRest, EStateM.bind]
        | ok bindings rest =>
            cases rest with
            | nil => simp [hType, hSome, hRest, EStateM.bind, expect]
            | cons last rest =>
                by_cases hLast : last.text = ")" <;>
                  simp [hType, hSome, hRest, EStateM.bind, expect, hLast, pure, EStateM.pure]
  by_cases hOpen : text = "("
  · subst hOpen
    simp [readDeclarations, bind, EStateM.bind, hFirst]
  · simp [readDeclarations, bind, EStateM.bind, hFirst, hClose, hDash, hOpen]

theorem readsWithin_readType {bound : Nat} {pending : List String}
    (hMore : ReadsWithin bound (readDeclarations []) (declaresAfter []))
    (hPending : ∀ name ∈ pending, Scope.isNoTypeName name = false) :
    ReadsWithin bound (readType pending) fun words => declaresAfter pending ("-" :: words) := by
  have hAfter (type : String) :
      ReadsWithin bound
        (if Scope.isNoTypeName type then
          refuse (.typeName type)
        else if pending.isEmpty then
          refuse (.typeWithoutNames type)
        else do
          let more ← readDeclarations []
          return pending.map (⟨·, type⟩) ++ more)
        fun words bindings => pending ≠ [] ∧ Scope.isNoTypeName type = false ∧
          ∃ more, declaresAfter [] words more ∧ bindings = pending.map (⟨·, type⟩) ++ more := by
    split
    · next hType => exact (reads_refuse _ bound).congr fun words bindings => by simp [hType]
    next hType =>
    split
    · next hSome =>
        refine (reads_refuse _ bound).congr fun words bindings => ?_
        simp [List.isEmpty_iff.mp hSome]
    · next hSome =>
        have hPendingSome : pending ≠ [] := fun hEmpty => hSome (List.isEmpty_iff.mpr hEmpty)
        refine (hMore.map _).congr fun words bindings => ?_
        simp only [Bool.not_eq_true] at hType
        simp only [hPendingSome, hType, ne_eq, not_false_eq_true, true_and]
  refine ((reads_next bound).bind hAfter).congr fun words bindings => ?_
  rw [declaresAfter_dash_iff hPending]
  constructor
  · rintro ⟨_, type, rest, rfl, rfl, hSome, hType, more, hDeclares, rfl⟩
    exact ⟨type, rest, more, rfl, hSome, hType, hDeclares, rfl⟩
  · rintro ⟨type, rest, more, rfl, hSome, hType, hDeclares, rfl⟩
    exact ⟨[type], type, rest, rfl, rfl, hSome, hType, more, hDeclares, rfl⟩

/-- A typed list is read up to and with the closing parenthesis. -/
theorem readsWithin_readDeclarations (bound : Nat) {pending : List String}
    (hPending : ∀ name ∈ pending, Scope.isNoTypeName name = false) :
    ReadsWithin bound (readDeclarations pending) (declaresAfter pending) := by
  induction bound generalizing pending with
  | zero => exact .zero (readDeclarations_nil pending) fun _ => not_closed_nil
  | succ bound ih =>
      refine .of_head (readDeclarations_nil pending) (fun _ => not_closed_nil) fun token tokens => .inl ?_
      have hStep := readDeclarations_cons pending token tokens
      by_cases hClose : token.text = ")"
      · refine ⟨pure _, ?_, by rw [hStep, if_pos hClose]; rfl⟩
        refine (reads_pure _ bound).congr fun words bindings => ?_
        rw [hClose, declaresAfter_close_iff hPending]
      by_cases hDash : token.text = "-"
      · refine ⟨readType pending, ?_, by rw [hStep, if_neg hClose, if_pos hDash]⟩
        rw [hDash]
        exact readsWithin_readType (ih (by simp)) hPending
      by_cases hOpen : token.text = "("
      · refine ⟨refuse _, ?_, by rw [hStep, if_neg hClose, if_neg hDash, if_pos hOpen]; rfl⟩
        refine (reads_refuse _ bound).congr fun words bindings => ?_
        rw [declaresAfter_cons_iff hClose, hOpen, false_iff]
        rintro ⟨front, -, hDeclares⟩
        exact (declares_noParenthesis hDeclares (by simp)).1 rfl
      · have hName : Scope.isNoTypeName token.text = false := isNoTypeName_iff.mpr ⟨hOpen, hClose, hDash⟩
        refine ⟨readDeclarations (pending ++ [token.text]), ?_,
          by rw [hStep, if_neg hClose, if_neg hDash, if_neg hOpen]⟩
        refine (ih ?_).congr fun words bindings => (declaresAfter_cons_iff hClose).symm
        intro name hMem
        obtain hOld | hNew := List.mem_append.mp hMem
        · exact hPending name hOld
        · rwa [List.mem_singleton.mp hNew]

theorem badQuantified?_eq_none_iff {bindings : List Binding} :
    Condition.badQuantified? bindings = none ↔ ∀ binding ∈ bindings, isVariable binding.name = true := by
  simp [Condition.badQuantified?]

/-- Refuses bindings of names that are no variables. -/
def quantifiable (bindings : List Binding) : Reading (List Binding) :=
  match Condition.badQuantified? bindings with
  | some name => refuse (.quantifiedName name)
  | none => return bindings

theorem readVariables_eq :
    Condition.readVariables = (do
      expect "("
      let bindings ← readDeclarations []
      quantifiable bindings) := by
  simp only [Condition.readVariables, readDeclarations, Scope.readTypedList, bind_assoc, pure_bind]
  rfl

/-- The variables of a quantifier are a typed list of variables between parentheses. -/
theorem reads_readVariables :
    Reads Condition.readVariables fun words bindings =>
      ∃ declared, words = "(" :: (declared ++ [")"]) ∧ Declares declared bindings ∧
        ∀ binding ∈ bindings, isVariable binding.name = true := by
  intro bound
  have hChecked (bindings : List Binding) :
      ReadsWithin bound (quantifiable bindings) fun words read =>
        words = [] ∧ read = bindings ∧ ∀ binding ∈ bindings, isVariable binding.name = true := by
    unfold quantifiable
    split
    · next name hBad =>
        refine (reads_refuse _ bound).congr fun words read => ?_
        simp only [← badQuantified?_eq_none_iff, hBad, reduceCtorEq, and_false]
    · next hGood =>
        refine (reads_pure bindings bound).congr fun words read => ?_
        simp only [← badQuantified?_eq_none_iff, hGood, and_true]
  have hNone : ∀ name ∈ ([] : List String), Scope.isNoTypeName name = false := by simp
  rw [readVariables_eq]
  refine ((reads_expect "(" bound).bind fun _ =>
    (readsWithin_readDeclarations bound hNone).bind hChecked).congr fun words bindings => ?_
  constructor
  · rintro ⟨_, _, _, rfl, rfl, _, read, _, rfl, ⟨declared, rfl, hDeclares⟩, rfl, rfl, hVariables⟩
    exact ⟨declared, by simp, hDeclares, hVariables⟩
  · rintro ⟨declared, rfl, hDeclares, hVariables⟩
    exact ⟨["("], (), declared ++ [")"], rfl, rfl, declared ++ [")"], bindings, [], by simp,
      ⟨declared, rfl, hDeclares⟩, rfl, rfl, hVariables⟩

end Reading
end PlanLogic
