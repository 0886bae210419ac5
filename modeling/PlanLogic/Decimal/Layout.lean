import PlanLogic.Decimal.Shortest

/-!
# The text of a number

A layout fixes everything about the text of a number that its digits leave open.  The two layouts here differ
only in whether a whole number keeps a fraction of zero.
-/

namespace PlanLogic
namespace Decimal

/-- How numbers are written. -/
structure Layout where
  /-- The least decimal exponent that is written without an exponent. -/
  leastPositional : Int
  /-- The least decimal exponent above it that is written with an exponent again. -/
  endPositional : Int
  /-- The least number of digits of an exponent. -/
  exponentWidth : Nat
  /-- Whether a whole number is written with `.0`. -/
  wholeFraction : Bool

/-- The layout of stored values: from `0.0001` up to below `10 ^ 16` without an exponent, and `80.0` for a
whole number. -/
def Layout.full : Layout := ⟨-4, 16, 2, true⟩

/-- The layout of values in conditions and documents: as `full`, with `80` for a whole number. -/
def Layout.plain : Layout := { Layout.full with wholeFraction := false }

/-- The digits of a number, most significant first; `rest` follows them. -/
def digitsOnto (n : Nat) (rest : List Nat) : List Nat :=
  if n < 10 then n :: rest else digitsOnto (n / 10) (n % 10 :: rest)
termination_by n

/-- The digits of a number, most significant first. -/
def digits (n : Nat) : List Nat :=
  digitsOnto n []

/-- The character of a digit. -/
def digitChar (digit : Nat) : Char :=
  Char.ofNat ('0'.toNat + digit)

/-- The digits of a number as characters. -/
def digitChars (n : Nat) : List Char :=
  (digits n).map digitChar

/-- An exponent with its sign, padded with zeros to a least width. -/
def exponentChars (width : Nat) (exponent : Int) : List Char :=
  let places := digitChars exponent.natAbs
  (if exponent < 0 then '-' else '+') :: (List.replicate (width - places.length) '0' ++ places)

/-- A number without an exponent, of which `point` digits stand before the point. -/
def positionalChars (layout : Layout) (places : List Char) (point : Int) : List Char :=
  if point ≤ 0 then
    '0' :: '.' :: (List.replicate (-point).toNat '0' ++ places)
  else if point < places.length then
    places.take point.toNat ++ '.' :: places.drop point.toNat
  else
    places ++ List.replicate (point.toNat - places.length) '0' ++
      (if layout.wholeFraction then ['.', '0'] else [])

/-- A number with an exponent and one digit before the point. -/
def scientificChars (layout : Layout) (places : List Char) (exponent : Int) : List Char :=
  let fraction := places.drop 1
  places.take 1 ++ (if fraction.isEmpty then [] else '.' :: fraction) ++
    'e' :: exponentChars layout.exponentWidth exponent

/-- A positive decimal in a layout. -/
def Layout.scaled (layout : Layout) (value : Scaled) : List Char :=
  let places := digitChars value.digits
  let exponent : Int := places.length + value.exponent - 1
  if layout.leastPositional ≤ exponent ∧ exponent < layout.endPositional then
    positionalChars layout places (exponent + 1)
  else
    scientificChars layout places exponent

/-- The magnitude of a finite value in a layout. -/
def Layout.magnitude (layout : Layout) (mantissa : Nat) (unit : Int) : List Char :=
  layout.scaled (if mantissa = 0 then ⟨0, 0⟩ else shortest mantissa unit)

/-- The text of a value taken apart. -/
def Layout.parts (layout : Layout) : Binary64 → List Char
  | .notANumber => ['n', 'a', 'n']
  | .infinite negative => (if negative then ['-'] else []) ++ ['i', 'n', 'f']
  | .finite negative mantissa exponent =>
    (if negative then ['-'] else []) ++ layout.magnitude mantissa exponent

/-- The text of a number: the fewest digits that read back. -/
def Layout.text (layout : Layout) (x : Float) : String :=
  String.ofList (layout.parts (Binary64.ofFloat x))

/-- The text of a stored value. -/
def fullText (x : Float) : String :=
  Layout.full.text x

/-- The text of a value in a condition or document. -/
def plainText (x : Float) : String :=
  Layout.plain.text x

end Decimal
end PlanLogic
