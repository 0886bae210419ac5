import PlanLogic.CommandLine.Piece
import PlanLogic.Decimal.Literal
import PlanLogic.Text.Blank

/-!
# Reading command lines

The pieces of a command line are taken from left to right.  A switch takes the values that follow it; a run of
values between switches goes to the operands that are still wanted, and what is left of it is reported as not
recognized.  A command takes everything after it.  Reading stops at the first refusal, or when help is asked
for.
-/

namespace PlanLogic
namespace CommandLine

/-- What has been read: the values of the switches by their full names, in the order of use, the operands, the
command with the arguments after it, and the arguments that nothing took. -/
structure Given where
  switches : List (String × List String) := []
  operands : List String := []
  command? : Option (String × List String) := none
  extras : List String := []
deriving Repr, DecidableEq

/-- Why reading stops early. -/
inductive Stop where
  | help
  | refused (refusal : Refusal)
deriving Repr, DecidableEq

namespace Given

/-- Whether a switch is used. -/
def uses (given : Given) (key : String) : Bool :=
  given.switches.any fun use => use.1 == key

/-- The values of the last use of a switch. -/
def values? (given : Given) (key : String) : Option (List String) :=
  (given.switches.reverse.find? fun use => use.1 == key).map Prod.snd

/-- The value of the last use of a switch that takes one. -/
def text? (given : Given) (key : String) : Option String :=
  (given.values? key).bind List.head?

/-- The operand at a position. -/
def operand (given : Given) (position : Nat) : String :=
  given.operands[position]?.getD ""

/-- The same with more arguments that nothing took. -/
def pass (given : Given) (texts : List String) : Given :=
  { given with extras := given.extras ++ texts }

end Given

/-- The whole number that an argument denotes; white space around it does not matter. -/
def wholeNumber? (text : String) : Option Int :=
  Decimal.whole? (Text.trim text.toList)

/-! ## Switches -/

/-- The points in which readers of command lines differ. -/
structure Dialect where
  /-- Whether the separating argument is a value like any other when it is attached to a switch. -/
  keepsSeparators : Bool
  /-- Whether letters joined to a flag are passed over from the first one on that is no flag.  Then nothing can be
  attached to a flag after an equals sign or with a dash in front.  Otherwise such letters are refused. -/
  passesLetters : Bool
deriving Repr, DecidableEq

namespace Dialect

/-- The older reader. -/
def early : Dialect := ⟨false, false⟩

/-- The newer reader. -/
def late : Dialect := ⟨true, true⟩

/-- The values that a text attached to a switch gives it.  If the separating argument is dropped, it leaves the
switch without one. -/
def valuesAttached (dialect : Dialect) (text : String) : List String :=
  if text = Piece.separatorText && !dialect.keepsSeparators then [] else [text]

end Dialect

/-- The switches that one argument uses with their values, how many of the following pieces are among these, and what
of the argument nothing takes. -/
structure Expansion where
  uses : List (Switch × List String)
  taken : Nat := 0
  extras : List String := []

namespace Expansion

/-- An expansion after one more flag. -/
def afterFlag (expansion : Expansion) (flag : Switch) : Expansion :=
  { expansion with uses := (flag, []) :: expansion.uses }

/-- A switch that takes its values from the following pieces. -/
def following (switch : Switch) (rest : List Piece) : Except Refusal Expansion :=
  match switch.arity with
  | .flag => .ok { uses := [(switch, [])] }
  | .one =>
    match Piece.leadingValues rest with
    | value :: _ => .ok { uses := [(switch, [value])], taken := 1 }
    | [] => .error (.valueMissing switch.label)
  | .many =>
    let values := Piece.leadingValues rest
    .ok { uses := [(switch, values)], taken := values.length }

/-- A switch with a text attached, after an equals sign or not: its value or, after a flag of one letter, more such
flags. -/
def attached (dialect : Dialect) (grammar : Grammar) (rest : List Piece) (switch : Switch) (short equals : Bool) :
    List Char → Except Refusal Expansion
  | [] =>
    if switch.arity = .flag then
      .error (.valueIgnored switch.label "")
    else
      .ok { uses := [(switch, dialect.valuesAttached "")] }
  | c :: cs =>
    let text := String.ofList (c :: cs)
    if switch.arity ≠ .flag then
      .ok { uses := [(switch, dialect.valuesAttached text)] }
    else if !short || dialect.passesLetters && (equals || c == '-') then
      .error (.valueIgnored switch.label text)
    else
      match grammar.switch? (String.ofList ['-', c]) with
      | none =>
        if dialect.passesLetters then
          .ok { uses := [(switch, [])], extras := ["-" ++ text] }
        else
          .error (.valueIgnored switch.label text)
      | some next =>
        let expansion := match cs with
          -- Only the last of the joined switches can take its value from what follows.
          | [] => following next rest
          | '=' :: value =>
            if dialect.passesLetters then
              attached dialect grammar rest next true true value
            else
              attached dialect grammar rest next true false ('=' :: value)
          | d :: ds => attached dialect grammar rest next true false (d :: ds)
        expansion.map (·.afterFlag switch)

/-- What one use of a switch stands for before the following pieces. -/
def ofUse (dialect : Dialect) (grammar : Grammar) (use : Use) (rest : List Piece) : Except Refusal Expansion :=
  match use.attached? with
  | none => following use.switch rest
  | some attachment => attached dialect grammar rest use.switch use.isShort attachment.equals attachment.text

end Expansion

/-- The first reason against the values of a switch. -/
def objection? (grammar : Grammar) (given : Given) (switch : Switch) (values : List String) :
    Option Refusal :=
  match if switch.whole then values.find? fun value => (wholeNumber? value).isNone else none with
  | some value => some (.valueNotWhole switch.label value)
  | none =>
    if grammar.alternatives.contains switch.key then
      (grammar.exclusive.find? fun other => other.key != switch.key && given.uses other.key).map
        fun other => .conflict switch.label other.label
    else
      none

/-- Records a use of a switch. -/
def give (grammar : Grammar) (given : Given) (use : Switch × List String) : Except Stop Given :=
  if use.1 = Switch.forHelp then
    .error .help
  else
    match objection? grammar given use.1 use.2 with
    | some refusal => .error (.refused refusal)
    | none => .ok { given with switches := given.switches ++ [(use.1.key, use.2)] }

/-! ## Operands -/

/-- Some pieces without the separators at their start. -/
def skipSeparators (pieces : List Piece) : List Piece :=
  pieces.dropWhile Piece.isSeparator

/-- The value of an operand at the start of a run, and the rest of the run.  A second separator in the place of
an operand that may be left out leaves it out. -/
def takeOperand (operand : Operand) (run : List Piece) : Option (String × List Piece) :=
  match skipSeparators run with
  | .plain text :: rest =>
    if run.head? = some (.plain Piece.separatorText) then
      some (operand.default?.getD text, skipSeparators rest)
    else
      some (text, skipSeparators rest)
  | rest => operand.default?.map fun value => (value, rest)

/-- The values of as many operands as a run has, and the rest of the run. -/
def takeOperands : List Operand → List Piece → List String × List Piece
  | [], run => ([], run)
  | operand :: operands, run =>
    match takeOperand operand run with
    | none => ([], run)
    | some (value, rest) =>
      let (values, left) := takeOperands operands rest
      (value :: values, left)

/-- A command with its arguments, at the start of a run that holds a value. -/
def takeCommand (name : String) (choices : List String) (texts : List String) :
    Except Stop (String × List String) :=
  match texts with
  | [] => .error (.refused (.operandsMissing [name]))
  | command :: arguments =>
    if choices.contains command then
      .ok (command, arguments)
    else
      .error (.refused (.unknownCommand name command choices))

/-! ## Whole command lines -/

/-- Takes pieces one after the other. -/
def readPieces (dialect : Dialect) (grammar : Grammar) (given : Given) : List Piece → Except Stop Given
  | [] => .ok given
  | .dashed text none :: rest => readPieces dialect grammar (given.pass [text]) rest
  | .dashed _ (some use) :: rest =>
    match Expansion.ofUse dialect grammar use rest with
    | .error refusal => .error (.refused refusal)
    | .ok expansion =>
      match expansion.uses.foldlM (give grammar) given with
      | .error stop => .error stop
      | .ok next => readPieces dialect grammar (next.pass expansion.extras) (rest.drop expansion.taken)
  | piece :: rest =>
    let more := rest.takeWhile fun next => !next.isDashed
    let after := rest.drop more.length
    match grammar.operands with
    | .values operands =>
      let (values, left) := takeOperands (operands.drop given.operands.length) (piece :: more)
      let next := { given with operands := given.operands ++ values }
      readPieces dialect grammar (next.pass (left.map Piece.argument)) after
    | .command name _ choices =>
      -- A run of separators alone does not name a command.
      if (piece :: more).all Piece.isSeparator then
        readPieces dialect grammar (given.pass ((piece :: more).map Piece.argument)) after
      else
        (takeCommand name (choices.map Choice.name) ((piece :: rest).map Piece.argument)).map
          fun command => { given with command? := some command }
termination_by pieces => pieces.length

/-- The names of what must be given and is not. -/
def missing (grammar : Grammar) (given : Given) : List String :=
  match grammar.operands with
  | .values operands =>
    ((operands.drop given.operands.length).filter fun operand => operand.default?.isNone).map
      Operand.name
  | .command name required _ => if required && given.command?.isNone then [name] else []

/-- Whether none of the alternatives is used although there are some. -/
def lacksAlternative (grammar : Grammar) (given : Given) : Bool :=
  !grammar.exclusive.isEmpty && !grammar.exclusive.any fun switch => given.uses switch.key

/-- What the arguments of a program say under its grammar. -/
def Grammar.read (dialect : Dialect) (grammar : Grammar) (arguments : List String) : Except Stop Given :=
  match Piece.ofArguments grammar arguments with
  | .error refusal => .error (.refused refusal)
  | .ok pieces =>
    match readPieces dialect grammar {} pieces with
    | .error stop => .error stop
    | .ok given =>
      if !(missing grammar given).isEmpty then
        .error (.refused (.operandsMissing (missing grammar given)))
      else if lacksAlternative grammar given then
        .error (.refused (.alternativeMissing (grammar.exclusive.map Switch.label)))
      else
        .ok given

end CommandLine
end PlanLogic
