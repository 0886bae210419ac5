import PlanLogic.Decimal.Rounding
import PlanLogic.Text.DecimalDigit

/-!
# Reading numbers

Two grammars share one shape.  A *literal* of the condition language has an optional sign, digits with at most
one point, at least one of them before or after it, and an optional exponent; a line feed may end it.  A *numeral*
of a document may also be one of the words for infinity and not-a-number, and single underscores may stand between
its digits.
Every decimal digit of Unicode counts as the ASCII digit of the same value.
-/

namespace PlanLogic
namespace Decimal

/-- The values of the digits at the start of a text, and what follows them. -/
def takeDigits : List Char → List Nat × List Char
  | [] => ([], [])
  | c :: cs =>
    match Text.digitValue? c with
    | some digit =>
      let rest := takeDigits cs
      (digit :: rest.1, rest.2)
    | none => ([], c :: cs)

/-- A sign at the start of a text, and what follows it. -/
def takeSign : List Char → Bool × List Char
  | '-' :: cs => (true, cs)
  | '+' :: cs => (false, cs)
  | cs => (false, cs)

/-- The exponent after a mantissa, which must end the text; no exponent counts as zero. -/
def exponent? : List Char → Option Int
  | [] => some 0
  | c :: cs =>
    if c = 'e' ∨ c = 'E' then
      let signed := takeSign cs
      match takeDigits signed.2 with
      | (digit :: more, []) =>
        let size : Int := Text.positional 0 (digit :: more)
        some (if signed.1 then -size else size)
      | _ => none
    else
      none

/-- The digits after a point at the start of a text, and what follows them. -/
def takeFraction : List Char → List Nat × List Char
  | '.' :: cs => takeDigits cs
  | cs => ([], cs)

/-- A number without a sign: digits, a point, digits and an exponent. -/
def unsigned? (cs : List Char) : Option Scaled :=
  let whole := takeDigits cs
  let fraction := takeFraction whole.2
  if whole.1.isEmpty && fraction.1.isEmpty then
    none
  else
    (exponent? fraction.2).map fun exponent =>
      ⟨Text.positional 0 (whole.1 ++ fraction.1), exponent - fraction.1.length⟩

/-- A text without the line feed that it ends with, if it ends with one. -/
def dropLineFeed (cs : List Char) : List Char :=
  if cs.getLast? = some '\n' then cs.dropLast else cs

/-- The value of a literal of the condition language, and nothing for any other text.  A line feed after the
literal is passed over. -/
def literal? (cs : List Char) : Option Float :=
  let signed := takeSign (dropLineFeed cs)
  (unsigned? signed.2).map fun value => (nearest signed.1 value).toFloat

/-- A text without its underscores, if each of them stands between two digits; `afterDigit` says whether a
digit comes just before. -/
def dropUnderscores? (afterDigit : Bool) : List Char → Option (List Char)
  | [] => some []
  | '_' :: c :: cs =>
    if afterDigit && Text.isDigit c then
      (dropUnderscores? true cs).map (c :: ·)
    else
      none
  | c :: cs =>
    if c = '_' then none else (dropUnderscores? (Text.isDigit c) cs).map (c :: ·)

/-- The ASCII letter in lower case. -/
def asciiLower (c : Char) : Char :=
  c.toLower

/-- The value of a word for infinity or not-a-number. -/
def special? (negative : Bool) (cs : List Char) : Option Binary64 :=
  let word := cs.map asciiLower
  if word = ['i', 'n', 'f'] ∨ word = ['i', 'n', 'f', 'i', 'n', 'i', 't', 'y'] then
    some (.infinite negative)
  else if word = ['n', 'a', 'n'] then
    some .notANumber
  else
    none

/-- The value of a numeral of a document, and nothing for any other text. -/
def numeral? (cs : List Char) : Option Float :=
  (dropUnderscores? false cs).bind fun plain =>
    let signed := takeSign plain
    match special? signed.1 signed.2 with
    | some value => some value.toFloat
    | none => (unsigned? signed.2).map fun value => (nearest signed.1 value).toFloat

/-- The largest number of digits of a whole number that is read. -/
def maxWholeDigits : Nat := 4300

/-- The value of a whole number with an optional sign, and nothing for any other text. -/
def whole? (cs : List Char) : Option Int :=
  (dropUnderscores? false cs).bind fun plain =>
    let signed := takeSign plain
    match takeDigits signed.2 with
    | (digit :: more, []) =>
      if (digit :: more).length ≤ maxWholeDigits then
        let size : Int := Text.positional 0 (digit :: more)
        some (if signed.1 then -size else size)
      else
        none
    | _ => none

end Decimal
end PlanLogic
