import PlanLogic.Proofs.Commands.Printing
import PlanLogic.Proofs.Commands.Steps
import PlanLogic.Store.Server

/-!
# What a run of the program changes

A run changes a file only if it is asked to make an effect true of the snapshot in that file and to write the result,
and only if the effect was made true.  Then the file has the text of what the effect left.  When an effect fails
half-way, what it had changed already is not written.

The file is written before the line that says so is printed.  If the console cannot show this line, because the path
has marks that do not fit together, the run ends as a failure although the file was written.  That is the only failure
after which a file is changed.

The store is changed only by commands on the state of a problem and by making an effect true of a problem.
-/

namespace PlanLogic

namespace Files

/-- The text of the file at a path, with its line ends as they are. -/
def text? (files : Files) (path : String) : Option String :=
  (files.find? (isAt path)).map Prod.snd

/-- One file has another text, and all others are as they were. -/
structure Replaced (files : Files) (path text : String) (after : Files) : Prop where
  names : after.map Prod.fst = files.map Prod.fst
  here : after.text? path = some text
  elsewhere : ∀ other, Location.ofPath other ≠ Location.ofPath path → after.text? other = files.text? other

end Files

namespace Question

/-- An effect can be made true of the snapshot in the file at a path, and leaves a snapshot with a given text. -/
def Achieves (question : Question) (path : String) (files : Files) (text : String) : Prop :=
  ∃ tree old state, question.tree = .ok tree ∧ files.read? path = some old ∧ Snapshot.ofText old = .ok state ∧
    (state.evaluated true tree).1.success = true ∧ (state.evaluated true tree).2.state.text = text

/-- An effect was made true of the snapshot in the file at a path, and this file has the text of what is left. -/
def Writes (question : Question) (path : String) (files after : Files) : Prop :=
  ∃ text, question.Achieves path files text ∧ files.Replaced path text after

end Question

/-- The arguments ask for making an effect true of a file and for writing the result. -/
def AsksToWrite (dialect : CommandLine.Dialect) (arguments : List String) (question : Question) (path : String) :
    Prop :=
  Request.ofArguments dialect arguments = .ok (.apply question (.file path) true)

/-- Some arguments ask for one thing. -/
theorem AsksToWrite.unique {dialect : CommandLine.Dialect} {arguments : List String} {question other : Question}
    {path place : String} (hAsks : AsksToWrite dialect arguments question path)
    (hOther : AsksToWrite dialect arguments other place) : other = question ∧ place = path := by
  obtain ⟨hQuestion, hBase, -⟩ := Request.apply.inj (Except.ok.inj (hOther.symm.trans hAsks))
  exact ⟨hQuestion, Base.file.inj hBase⟩

/-! ## Writing a file -/

namespace Files

variable {files : Files} {path other text : String}

theorem find?_write (files : Files) (path text other : String) :
    (files.write path text).find? (isAt other) =
      (files.find? (isAt other)).map fun entry => if isAt path entry then (entry.1, text) else entry := by
  rw [write, List.find?_map]
  refine congrArg (fun found => Option.map _ (List.find? found files)) (funext fun entry => ?_)
  rw [Function.comp_apply]
  split <;> rfl

theorem text?_write_self (hFile : (files.read? path).isSome = true) :
    (files.write path text).text? path = some text := by
  rw [read?, Option.isSome_map] at hFile
  obtain ⟨entry, hEntry⟩ := Option.isSome_iff_exists.mp hFile
  rw [text?, find?_write, hEntry, Option.map_some, if_pos (List.find?_some hEntry)]
  rfl

theorem text?_write_ne (hOther : Location.ofPath other ≠ Location.ofPath path) :
    (files.write path text).text? other = files.text? other := by
  rw [text?, text?, find?_write]
  cases hFound : files.find? (isAt other) with
  | none => rfl
  | some entry =>
      have hEntry : Location.ofPath entry.1 = Location.ofPath other := by
        simpa [isAt] using List.find?_some hFound
      have hAway : ¬ isAt path entry = true := by
        simpa [isAt, hEntry] using hOther
      rw [Option.map_some, if_neg hAway]

theorem replaced_write (hFile : (files.read? path).isSome = true) : files.Replaced path text (files.write path text) :=
  ⟨map_fst_write files path text, text?_write_self hFile, fun _ hOther => text?_write_ne hOther⟩

end Files

namespace Question

variable {question : Question} {path text other : String} {files : Files}

theorem Achieves.replaced (hAchieves : question.Achieves path files text) :
    files.Replaced path text (files.write path text) := by
  obtain ⟨-, old, -, -, hFile, -⟩ := hAchieves
  exact Files.replaced_write (Option.isSome_iff_exists.mpr ⟨old, hFile⟩)

/-- An effect leaves one text. -/
theorem Achieves.unique (hAchieves : question.Achieves path files text) (hOther : question.Achieves path files other) :
    text = other := by
  obtain ⟨tree, old, state, hTree, hFile, hText, -, rfl⟩ := hAchieves
  obtain ⟨tree', old', state', hTree', hFile', hText', -, rfl⟩ := hOther
  obtain rfl := Except.ok.inj (hTree.symm.trans hTree')
  obtain rfl := Option.some.inj (hFile.symm.trans hFile')
  obtain rfl := Except.ok.inj (hText.symm.trans hText')
  rfl

end Question

/-! ## Making an effect true of a file -/

variable {σ : Type}

namespace Command

variable {console : Console} {progress : Progress σ}

/-- A step ends the run as a failure, with the world as it was. -/
def FailsAt (console : Console) (progress : Progress σ) (command : Command σ α) : Prop :=
  ∃ ending after, command console progress = .error ending after ∧ ending.status ≠ 0 ∧ after.world = progress.world

theorem FailsAt.bind {command : Command σ α} (hFails : FailsAt console progress command) (next : α → Command σ β) :
    FailsAt console progress (command >>= next) := by
  obtain ⟨ending, after, hFirst, hStatus, hWorld⟩ := hFails
  exact ⟨ending, after, bind_error hFirst, hStatus, hWorld⟩

/-- What follows a step that leaves the world alone. -/
theorem FailsAt.after {command : Command σ α} {next : α → Command σ β} {answer : α} {middle : Progress σ}
    (hFirst : command console progress = .ok answer middle) (hWorld : middle.world = progress.world)
    (hFails : FailsAt console middle (next answer)) : FailsAt console progress (command >>= next) := by
  obtain ⟨ending, after, hNext, hStatus, hSame⟩ := hFails
  exact ⟨ending, after, (bind_ok hFirst).trans hNext, hStatus, hSame.trans hWorld⟩

theorem say_of_shown {text shown : String} (hShown : console.text text = .ok shown) :
    say text console progress = .ok () { progress with output := progress.output ++ shown } := by
  rw [say, display, hShown]

theorem say_of_fault {text : String} {fault : Console.Fault} (hFault : console.text text = .error fault) :
    say text console progress = .error (.crash (.print fault)) progress := by
  rw [say, display, hFault]

/-- A complaint ends the run, whether it can be printed or not. -/
theorem failsAt_refuse (complaint : Complaint) : FailsAt console progress (refuse complaint : Command σ α) := by
  cases hText : console.text (Console.styled .red (failureText complaint.message)) with
  | error fault => exact FailsAt.bind ⟨_, _, say_of_fault hText, Nat.one_ne_zero, rfl⟩ _
  | ok shown => exact FailsAt.after (say_of_shown hText) rfl ⟨_, _, rfl, Nat.one_ne_zero, rfl⟩

end Command

open Command

/-- Reading a question and a file: this fails without any change, or gives the tree of the question and the snapshot
that the text of the file describes. -/
theorem Question.loadFile_cases (question : Question) (path : String) (console : Console) (progress : Progress σ) :
    (FailsAt console progress (question.loadFile path) ∧ ∀ text, ¬ question.Achieves path progress.world.files text) ∨
      ∃ tree old state, question.tree = .ok tree ∧ progress.world.files.read? path = some old ∧
        Snapshot.ofText old = .ok state ∧ question.loadFile path console progress = .ok (tree, state) progress := by
  rw [loadFile]
  cases hTree : question.tree with
  | error error =>
      refine Or.inl ⟨(failsAt_refuse _).bind _, fun text hAchieves => ?_⟩
      obtain ⟨tree, -, -, hRead, -⟩ := hAchieves
      exact absurd (hTree.symm.trans hRead) (by simp)
  | ok tree =>
  have hFiles : (Command.files : Command σ Files) console progress = .ok progress.world.files progress := rfl
  rw [orRefuse, pure_bind]
  cases hFile : progress.world.files.read? path with
  | none =>
      have hMissing : progress.world.files.snapshot path = .error (.fileMissing path) := by
        rw [Files.snapshot, hFile]
      refine Or.inl ⟨FailsAt.bind (FailsAt.after hFiles rfl ?_) _, fun text hAchieves => ?_⟩
      · rw [hMissing]
        exact failsAt_refuse _
      · obtain ⟨-, old, -, -, hRead, -⟩ := hAchieves
        exact absurd (hFile.symm.trans hRead) (by simp)
  | some old =>
  cases hText : Snapshot.ofText old with
  | error error =>
      have hMalformed : progress.world.files.snapshot path = .error (.document error) := by
        simp only [Files.snapshot, hFile, hText, Except.mapError]
      refine Or.inl ⟨FailsAt.bind (FailsAt.after hFiles rfl ?_) _, fun text hAchieves => ?_⟩
      · rw [hMalformed]
        exact failsAt_refuse _
      · obtain ⟨-, other, state, -, hRead, hState, -⟩ := hAchieves
        obtain rfl := Option.some.inj (hFile.symm.trans hRead)
        exact absurd (hText.symm.trans hState) (by simp)
  | ok state =>
      have hSnapshot : progress.world.files.snapshot path = .ok state := by
        simp only [Files.snapshot, hFile, hText, Except.mapError]
      refine Or.inr ⟨tree, old, state, rfl, rfl, hText, ?_⟩
      have hRead : (loadSnapshot path : Command σ Snapshot) console progress = .ok state progress := by
        rw [loadSnapshot, bind_ok hFiles, hSnapshot]
        rfl
      exact bind_ok hRead

/-- Making an effect true of a file and writing the result: this fails without any change, or it comes to the line
that says that the file was written. -/
theorem Question.applyFile_cases (question : Question) (path : String) (console : Console) (progress : Progress σ) :
    (FailsAt console progress (question.applyFile path true) ∧
        ∀ text shown, question.Achieves path progress.world.files text → console.text appliedText ≠ .ok shown) ∨
      ∃ text middle, question.Achieves path progress.world.files text ∧
        middle.world = { progress.world with files := progress.world.files.write path text } ∧
        question.applyFile path true console progress = say (writtenText path) console middle := by
  rw [applyFile]
  rcases question.loadFile_cases path console progress with
    ⟨hFails, hNever⟩ | ⟨tree, old, state, hTree, hFile, hText, hLoaded⟩
  · exact Or.inl ⟨hFails.bind _, fun text _ hAchieves => absurd hAchieves (hNever text)⟩
  · -- The diagnostics are reported, whatever comes of the effect.
    let noted : Progress σ :=
      { progress with diagnostics := progress.diagnostics ++ (state.evaluated true tree).2.reports }
    have hNoted : note (state.evaluated true tree).2.reports console progress = .ok () noted := rfl
    by_cases hSuccess : (state.evaluated true tree).1.success = true
    · have hAchieves : question.Achieves path progress.world.files (state.evaluated true tree).2.state.text :=
        ⟨tree, old, state, hTree, hFile, hText, hSuccess, rfl⟩
      cases hApplied : console.text appliedText with
      | error fault =>
          refine Or.inl ⟨.after hLoaded rfl (.after hNoted rfl (.bind ?_ _)), fun _ _ _ => nofun⟩
          rw [reportApply, if_pos hSuccess]
          exact ⟨_, _, say_of_fault hApplied, Nat.one_ne_zero, rfl⟩
      | ok shown =>
          refine Or.inr ⟨_, { noted with
            world := { progress.world with
              files := progress.world.files.write path (state.evaluated true tree).2.state.text }
            output := progress.output ++ shown }, hAchieves, rfl, ?_⟩
          refine ((bind_ok hLoaded).trans (bind_ok hNoted)).trans ?_
          rw [reportApply, if_pos hSuccess, bind_ok (say_of_shown hApplied), if_pos rfl]
          exact bind_ok rfl
    · refine Or.inl ⟨.after hLoaded rfl (.after hNoted rfl (.bind ?_ _)), fun text shown hAchieves => ?_⟩
      · rw [reportApply, if_neg hSuccess]
        exact failsAt_refuse _
      · obtain ⟨tree', old', state', hTree', hFile', hText', hDone, -⟩ := hAchieves
        obtain rfl := Except.ok.inj (hTree.symm.trans hTree')
        obtain rfl := Option.some.inj (hFile.symm.trans hFile')
        obtain rfl := Except.ok.inj (hText.symm.trans hText')
        exact absurd hDone hSuccess

/-! ## Requests -/

/-- A request that may change the store. -/
def Request.ChangesStore : Request → Prop
  | .apply _ (.problem _) _ => True
  | .state _ _ => True
  | _ => False

namespace Command.Keeps

variable {holds : World σ → Prop}

theorem files : Keeps holds (Command.files : Command σ Files) :=
  fun _ _ hHolds => hHolds

theorem note (diagnostics : String) : Keeps holds (Command.note diagnostics : Command σ Unit) :=
  fun _ _ hHolds => hHolds

theorem loadSnapshot (path : String) : Keeps holds (PlanLogic.loadSnapshot path : Command σ Snapshot) :=
  files.bind fun _ => orRefuse _ _

theorem loadFile (question : Question) (path : String) :
    Keeps holds (question.loadFile path : Command σ (Tree × Snapshot)) :=
  (orRefuse _ _).bind fun _ => (loadSnapshot path).bind fun _ => pure _

theorem print (question : Question) (withNodes : Bool) : Keeps holds (question.print withNodes : Command σ Unit) := by
  refine (orRefuse _ _).bind fun read => (say _).bind fun _ => (say _).bind fun _ => (sayIn _ _).bind fun _ => ?_
  exact ((say _).bind fun _ => (isStill_display _).keeps holds).ite (pure ())

theorem reportCheck (outcome : Outcome) : Keeps holds (PlanLogic.reportCheck outcome : Command σ Unit) :=
  (refuse _).ite ((sayIn _ _).ite ((sayIn _ _).bind fun _ => (isStill_stop _).keeps holds))

theorem reportApply (outcome : Outcome) : Keeps holds (PlanLogic.reportApply outcome : Command σ Unit) :=
  (say _).ite (refuse _)

theorem checkFile (question : Question) (path : String) : Keeps holds (question.checkFile path : Command σ Unit) :=
  (loadFile question path).bind fun _ => (note _).bind fun _ => reportCheck _

/-- An effect that is made true of a file, if writing the file keeps the property. -/
theorem applyFile (question : Question) (path : String) {write : Bool}
    (hWrite : write = true → ∀ text, Keeps holds (Command.writeFile path text : Command σ Unit)) :
    Keeps holds (question.applyFile path write : Command σ Unit) := by
  refine (loadFile question path).bind fun _ => (note _).bind fun _ => (reportApply _).bind fun _ => ?_
  cases write with
  | false => exact say _
  | true => exact (hWrite rfl _).bind fun _ => say _

theorem dealt {problem : Problem} {session : Problem.Session σ α} (hDeal : Keeps holds (deal problem session)) :
    Keeps holds (problem.dealt session) := by
  refine hDeal.bind fun reply => ?_
  cases reply with
  | ok answer => exact pure answer
  | error trouble => cases trouble <;> exact refuse _

variable [StoreService σ]

theorem evaluateOn {problem : Problem} {commit : Bool} {tree : Tree}
    (hDeal : Keeps holds (deal problem (evaluate commit tree 0 false : Problem.Session σ Outcome))) :
    Keeps holds (PlanLogic.evaluateOn problem commit tree : Command σ Outcome) := by
  refine hDeal.bind fun reply => ?_
  cases reply with
  | ok outcome => exact pure outcome
  | error trouble =>
      cases trouble with
      | store error => exact refuse _
      | fact error => exact (isStill_stop _).keeps holds

theorem checkProblem (question : Question) (problem : Problem) :
    Keeps holds (question.checkProblem problem : Command σ Unit) := by
  refine (orRefuse _ _).bind fun tree => (evaluateOn ?_).bind fun _ => reportCheck _
  exact (isStill_deal problem
    (Problem.Session.asking.evaluate (Vocabulary.covers_everything tree) 0 false)).keeps holds

theorem applyProblem (question : Question) (problem : Problem)
    (hDeal : ∀ tree, Keeps holds (deal problem (evaluate true tree 0 false : Problem.Session σ Outcome))) :
    Keeps holds (question.applyProblem problem : Command σ Unit) :=
  (orRefuse _ _).bind fun tree => (evaluateOn (hDeal tree)).bind fun _ => reportApply _

/-- A command on the state of a problem. -/
theorem answer {problem : Problem}
    (hDeal : ∀ {α : Type} (session : Problem.Session σ α), Keeps holds (deal problem session))
    (request : StateRequest) : Keeps holds (problem.answer request : Command σ Unit) := by
  cases request with
  | declare object => exact (dealt (hDeal _)).bind fun _ => say _
  | add text =>
      exact (orRefuse _ _).bind fun _ => (dealt (hDeal _)).bind fun _ => (say _).ite (refuse _)
  | remove text => exact (orRefuse _ _).bind fun _ => (dealt (hDeal _)).bind fun _ => say _
  | assign text => exact (orRefuse _ _).bind fun _ => (dealt (hDeal _)).bind fun _ => say _
  | load path => exact (loadSnapshot path).bind fun _ => (dealt (hDeal _)).bind fun _ => say _
  | list =>
      exact (dealt (hDeal _)).bind fun _ => (sayIn _ _).bind fun _ => (dealt (hDeal _)).bind fun _ =>
        (forM_say _).bind fun _ => (dealt (hDeal _)).bind fun _ => say _
  | clear => exact (dealt (hDeal _)).bind fun _ => (dealt (hDeal _)).bind fun _ => say _
  | activate name => exact (dealt (hDeal _)).bind fun _ => (dealt (hDeal _)).bind fun _ => say _

theorem action (text : String) :
    Keeps holds (Request.run (.action text) : Command σ Unit) :=
  (orRefuse _ _).bind fun _ => (say _).bind fun _ => (say _).bind fun _ => (say _).bind fun _ => sayIn _ _

end Command.Keeps

namespace Request

variable [StoreService σ]

/-- A request other than to write a file leaves the files as they are. -/
theorem keeps_files {request : Request} (hOther : ∀ question path, request ≠ .apply question (.file path) true)
    (files : Files) : Keeps (·.files = files) (request.run : Command σ Unit) := by
  cases request with
  | overview => exact fun _ _ hFiles => hFiles
  | print question withNodes => exact .print question withNodes
  | check question base =>
      cases base with
      | file path => exact .checkFile question path
      | problem problem => exact .checkProblem question problem
  | apply question base write =>
      cases base with
      | file path => exact .applyFile question path fun hWrite => absurd (hWrite ▸ rfl) (hOther question path)
      | problem problem => exact .applyProblem question problem fun _ => keeps_files_deal files problem _
  | state problem asked => exact .answer (keeps_files_deal files problem) asked
  | action text => exact .action text

/-- A request that is not meant to change the store leaves it as it is. -/
theorem keeps_store {request : Request} (hKept : ¬ request.ChangesStore) (store : σ) :
    Keeps (·.store = store) (request.run : Command σ Unit) := by
  cases request with
  | overview => exact fun _ _ hStore => hStore
  | print question withNodes => exact .print question withNodes
  | check question base =>
      cases base with
      | file path => exact .checkFile question path
      | problem problem => exact .checkProblem question problem
  | apply question base write =>
      cases base with
      | file path => exact .applyFile question path fun _ _ _ _ hStore => hStore
      | problem problem => exact absurd trivial hKept
  | state problem asked => exact absurd trivial hKept
  | action text => exact .action text

end Request

/-! ## Runs -/

theorem Report.ofResult_snd (result : EStateM.Result Ending (Progress σ) Unit) :
    (Report.ofResult result).2 = Command.worldOf result := by
  cases result <;> rfl

section Runs

variable [StoreService σ] {console : Console} {dialect : CommandLine.Dialect} {arguments : List String}
  {world : World σ}

theorem run_of_request {request : Request} (hRequest : Request.ofArguments dialect arguments = .ok request) :
    run console dialect arguments world = Report.ofResult (request.run console { world := world }) := by
  rw [run, hRequest]

/-- A request that keeps a property of the world, in a run. -/
theorem run_keeps {request : Request} (hRequest : Request.ofArguments dialect arguments = .ok request)
    {holds : World σ → Prop} (hKeeps : Command.Keeps holds (request.run : Command σ Unit)) (hHolds : holds world) :
    holds (run console dialect arguments world).2 := by
  rw [run_of_request hRequest, Report.ofResult_snd]
  exact hKeeps console _ hHolds

/-- A run that is asked to write a file fails without any change, or it writes the file.  Then it ends with the line
that says so: as a success if this line can be shown, else as a crash. -/
theorem run_write_cases (console : Console) (world : World σ) {question : Question} {path : String}
    (hAsks : AsksToWrite dialect arguments question path) :
    let report := (run console dialect arguments world).1
    let next := (run console dialect arguments world).2
    (report.status ≠ 0 ∧ next = world ∧
        ∀ text shown, question.Achieves path world.files text → console.text appliedText ≠ .ok shown) ∨
      ∃ text, question.Achieves path world.files text ∧
        next = { world with files := world.files.write path text } ∧
        ((∃ shown, console.text (writtenText path) = .ok shown ∧ report.status = 0) ∨
          ∃ fault, console.text (writtenText path) = .error fault ∧ report.status = 1 ∧
            report.crash? = some (.print fault)) := by
  intro report next
  have hRun : run console dialect arguments world =
      Report.ofResult (question.applyFile path true console { world := world }) :=
    run_of_request hAsks
  simp only [report, next, hRun]
  rcases question.applyFile_cases path console { world := world } with
    ⟨⟨ending, after, hEnds, hStatus, hWorld⟩, hNever⟩ | ⟨text, middle, hAchieves, hWorld, hLast⟩
  · rw [hEnds]
    exact Or.inl ⟨hStatus, hWorld, hNever⟩
  · refine Or.inr ⟨text, hAchieves, ?_⟩
    rw [hLast]
    cases hShown : console.text (writtenText path) with
    | ok shown =>
        rw [say_of_shown hShown]
        exact ⟨hWorld, Or.inl ⟨shown, rfl, rfl⟩⟩
    | error fault =>
        rw [say_of_fault hShown]
        exact ⟨hWorld, Or.inr ⟨fault, rfl, rfl, rfl⟩⟩

/-- A run that is not asked to write a file leaves all files as they are. -/
theorem run_files_of_notAsked (hOther : ¬ ∃ question path, AsksToWrite dialect arguments question path) :
    (run console dialect arguments world).2.files = world.files := by
  cases hRequest : Request.ofArguments dialect arguments with
  | error halt => rw [run, hRequest]
  | ok request =>
      have hKeeps : Command.Keeps (·.files = world.files) (request.run : Command σ Unit) := by
        refine request.keeps_files ?_ world.files
        rintro question path rfl
        exact hOther ⟨question, path, hRequest⟩
      exact run_keeps hRequest hKeeps rfl

theorem run_store (hKept : ∀ request, Request.ofArguments dialect arguments = .ok request → ¬ request.ChangesStore) :
    (run console dialect arguments world).2.store = world.store := by
  cases hRequest : Request.ofArguments dialect arguments with
  | error halt => rw [run, hRequest]
  | ok request =>
      have hKeeps : Command.Keeps (·.store = world.store) (request.run : Command σ Unit) :=
        request.keeps_store (hKept request hRequest) world.store
      exact run_keeps hRequest hKeeps rfl

end Runs

/-- The line that says that a file was written can be shown if the path has no opening bracket. -/
theorem exists_writtenText {console : Console} (hLawful : console.Lawful) {path : String}
    (hPath : '[' ∉ path.toList) : ∃ shown, console.text (writtenText path) = .ok shown :=
  hLawful.styled .dim (by simp [hPath])

/-- What a run changes, on any console, with any store and in either dialect.

A run that is asked to make an effect true of a file and to write it, and that ends with the status of success, has
written what the effect left to this file, and left all others as they were.  A run that is not asked for this leaves
all files as they were.

A run that ends with another status leaves all files as they were too, but for one case: it has written the file as
asked, and then crashed because the line that says so cannot be shown.  It always does so when this line cannot be
shown, the effect can be made true and this can be reported.  On a console that keeps the laws of marks the case needs
a path with an opening bracket.

A run that neither makes an effect true of a problem nor does something with the state of one leaves the store as it
was. -/
theorem run_files [StoreService σ] (console : Console) (dialect : CommandLine.Dialect) (arguments : List String)
    (world : World σ) :
    let report := (run console dialect arguments world).1
    let next := (run console dialect arguments world).2
    (∀ question path, AsksToWrite dialect arguments question path → report.status = 0 →
        question.Writes path world.files next.files) ∧
      ((¬ ∃ question path, AsksToWrite dialect arguments question path) → next.files = world.files) ∧
      (report.status ≠ 0 → next.files = world.files ∨
        ∃ question path fault, AsksToWrite dialect arguments question path ∧
          question.Writes path world.files next.files ∧ console.text (writtenText path) = .error fault ∧
          report.crash? = some (.print fault)) ∧
      (∀ question path text shown fault, AsksToWrite dialect arguments question path →
        question.Achieves path world.files text → console.text appliedText = .ok shown →
        console.text (writtenText path) = .error fault →
          report.status = 1 ∧ report.crash? = some (.print fault) ∧
            world.files.Replaced path text next.files) ∧
      (console.Lawful → (∀ question path, AsksToWrite dialect arguments question path → '[' ∉ path.toList) →
        report.status ≠ 0 → next.files = world.files) ∧
      ((∀ request, Request.ofArguments dialect arguments = .ok request → ¬ request.ChangesStore) →
        next.store = world.store) := by
  intro report next
  by_cases hAsked : ∃ question path, AsksToWrite dialect arguments question path
  · obtain ⟨question, path, hAsks⟩ := hAsked
    rcases run_write_cases console world hAsks with ⟨hFailed, hNext, hNever⟩ | ⟨text, hAchieves, hNext, hLast⟩
    · have hKept : next.files = world.files := congrArg World.files hNext
      refine ⟨fun _ _ _ hZero => absurd hZero hFailed, fun _ => hKept, fun _ => Or.inl hKept, ?_, fun _ _ _ => hKept,
        run_store⟩
      rintro other place text shown fault hOther hAchieves hApplied -
      obtain ⟨rfl, rfl⟩ := hAsks.unique hOther
      exact absurd hApplied (hNever text shown hAchieves)
    · have hReplaced : world.files.Replaced path text next.files :=
        (congrArg World.files hNext).symm ▸ hAchieves.replaced
      have hWrites : question.Writes path world.files next.files := ⟨text, hAchieves, hReplaced⟩
      refine ⟨?_, fun hOther => absurd ⟨question, path, hAsks⟩ hOther, fun hStatus => ?_, ?_,
        fun hLawful hPaths hStatus => ?_, run_store⟩
      · rintro other place hOther -
        obtain ⟨rfl, rfl⟩ := hAsks.unique hOther
        exact hWrites
      · rcases hLast with ⟨-, -, hZero⟩ | ⟨fault, hFault, -, hCrash⟩
        · exact absurd hZero hStatus
        · exact Or.inr ⟨question, path, fault, hAsks, hWrites, hFault, hCrash⟩
      · rintro other place left shown fault hOther hLeft - hFault
        obtain ⟨rfl, rfl⟩ := hAsks.unique hOther
        obtain rfl := hAchieves.unique hLeft
        rcases hLast with ⟨_, hPrinted, -⟩ | ⟨_, hSame, hOne, hCrash⟩
        · exact absurd (hFault.symm.trans hPrinted) nofun
        · obtain rfl := Except.error.inj (hFault.symm.trans hSame)
          exact ⟨hOne, hCrash, hReplaced⟩
      · obtain ⟨shown, hPrinted⟩ := exists_writtenText hLawful (hPaths question path hAsks)
        rcases hLast with ⟨-, -, hZero⟩ | ⟨fault, hFault, -⟩
        · exact absurd hZero hStatus
        · exact absurd (hFault.symm.trans hPrinted) nofun
  · have hKept : next.files = world.files := run_files_of_notAsked hAsked
    exact ⟨fun question path hAsks => absurd ⟨question, path, hAsks⟩ hAsked, fun _ => hKept, fun _ => Or.inl hKept,
      fun question path _ _ _ hAsks => absurd ⟨question, path, hAsks⟩ hAsked, fun _ _ _ => hKept, run_store⟩

/-- Here a file is written under another name of it, and then an effect fails half-way.  The server cannot be
reached. -/
theorem run_files_written :
    let world : World Server := ⟨[("s", "(p a)\r\n"), ("t", "(p b)")], ⟨.empty, false⟩⟩
    let arguments := ["apply", "(q a)", "--state", "./s", "-w"]
    let failing := ["apply", "(and (q a) (increase (f) 1))", "--state", "./s", "-w"]
    let next := (run .standard .late arguments world).2
    (⟨"(q a)", "", []⟩ : Question).Writes "./s" world.files next.files ∧
      next.files.text? "s" = some "# Predicates\n(p a)\n(q a)\n" ∧ next.files.text? "t" = some "(p b)" ∧
      next.store = world.store ∧
      (run .standard .late failing world).1.status = 1 ∧
      (run .standard .late failing world).2.files = world.files := by
  intro world arguments failing next
  have hAsks : AsksToWrite .late arguments ⟨"(q a)", "", []⟩ "./s" := by
    rw [AsksToWrite]
    decide +kernel
  have hFailing : AsksToWrite .late failing ⟨"(and (q a) (increase (f) 1))", "", []⟩ "./s" := by
    rw [AsksToWrite]
    decide +kernel
  have hWrites := (run_files .standard .late arguments world).1 _ _ hAsks (by decide +kernel)
  have hStore : next.store = world.store := by
    refine (run_files .standard .late arguments world).2.2.2.2.2 fun request hSame => ?_
    obtain rfl := Except.ok.inj (hAsks.symm.trans hSame)
    exact id
  have hFailed : (run .standard .late failing world).1.status = 1 := by decide +kernel
  refine ⟨hWrites, by decide +kernel, by decide +kernel, hStore, hFailed, ?_⟩
  refine (run_files .standard .late failing world).2.2.2.2.1 Console.standard_lawful (fun question path hOther => ?_)
    (hFailed.symm ▸ Nat.one_ne_zero)
  obtain ⟨-, rfl⟩ := hFailing.unique hOther
  decide

/-- On no console that keeps the laws of marks can the path `d[/f]` be shown in a style, so a run that writes the
file at this path crashes after that. -/
theorem run_files_unannounced :
    let world : World Server := ⟨[("d[/f]", "(p a)")], ⟨.empty, true⟩⟩
    let arguments := ["apply", "(q a)", "--state", "d[/f]", "-w"]
    let report := (run .standard .late arguments world).1
    let next := (run .standard .late arguments world).2
    report.status = 1 ∧
      report.crash? = some (.print ⟨"closing tag '[/f]' at position 12 doesn't match any open tag"⟩) ∧
      next.files = [("d[/f]", "# Predicates\n(p a)\n(q a)\n")] ∧ next.files ≠ world.files ∧
      Console.standard.Lawful ∧
      ∀ console : Console, console.Lawful →
        (run console .late arguments world).1.status = 1 ∧
          (run console .late arguments world).2.files = next.files := by
  intro world arguments report next
  have hAsks : AsksToWrite .late arguments ⟨"(q a)", "", []⟩ "d[/f]" := by
    rw [AsksToWrite]
    decide +kernel
  have hNext : next.files = [("d[/f]", "# Predicates\n(p a)\n(q a)\n")] := by decide +kernel
  have hChanged : next.files ≠ world.files := by
    rw [hNext]
    decide
  refine ⟨by decide +kernel, by decide +kernel, hNext, hChanged, Console.standard_lawful, fun console hLawful => ?_⟩
  -- What the effect leaves does not depend on the console.
  rcases run_write_cases .standard world hAsks with ⟨-, hSame, -⟩ | ⟨text, hAchieves, hWritten, -⟩
  · exact absurd (congrArg World.files hSame) hChanged
  obtain ⟨shown, hApplied⟩ : ∃ shown, console.text appliedText = .ok shown :=
    hLawful.styled .green (by decide)
  obtain ⟨fault, hFault⟩ : ∃ fault, console.text (writtenText "d[/f]") = .error fault := by
    have hText : writtenText "d[/f]" = Console.styled .dim ("Wrote d" ++ "[/" ++ "f" ++ "]" ++ "") := by decide
    rw [hText]
    exact hLawful.unmatched .dim (by decide) (by decide) (by decide) (by decide) (by decide)
  rcases run_write_cases console world hAsks with ⟨-, -, hNever⟩ | ⟨other, hOther, hNow, hLast⟩
  · exact absurd hApplied (hNever text shown hAchieves)
  · obtain rfl := hAchieves.unique hOther
    rcases hLast with ⟨_, hPrinted, -⟩ | ⟨_, -, hOne, -⟩
    · exact absurd (hFault.symm.trans hPrinted) nofun
    · exact ⟨hOne, congrArg World.files (hNow.trans hWritten.symm)⟩

end PlanLogic
