import PlanLogic.Text.Printable

/-!
# Quoted text

A message shows a piece of text between quotes so that its ends and its invisible characters can be seen.  The
quotes are single ones, unless the text holds single quotes and no double ones.  A backslash comes before the
quote, before itself, and before the letter or the number that stands for a character that is not printable.
-/

namespace PlanLogic
namespace Text

/-- The single quote. -/
def singleQuote : Char := '\x27'

/-- The double quote. -/
def doubleQuote : Char := '\x22'

/-- The quote that encloses a text. -/
def quoteOf (cs : List Char) : Char :=
  if cs.contains singleQuote && !cs.contains doubleQuote then doubleQuote else singleQuote

/-- The last `width` hexadecimal digits of a number, in lower case. -/
def hexDigits (width number : Nat) : List Char :=
  (List.range width).reverse.map fun place => Nat.digitChar ((number >>> (4 * place)) % 16)

/-- A character as the number of its code point, in the shortest of three widths. -/
def escaped (c : Char) : List Char :=
  if c.toNat < 0x100 then
    '\\' :: 'x' :: hexDigits 2 c.toNat
  else if c.toNat < 0x10000 then
    '\\' :: 'u' :: hexDigits 4 c.toNat
  else
    '\\' :: 'U' :: hexDigits 8 c.toNat

/-- A character as it stands between quotes. -/
def quotedChar (quote c : Char) : List Char :=
  if c = quote ∨ c = '\\' then ['\\', c]
  else if c = '\n' then ['\\', 'n']
  else if c = '\r' then ['\\', 'r']
  else if c = '\t' then ['\\', 't']
  else if isPrintable c then [c]
  else escaped c

/-- A text between quotes. -/
def quotedChars (cs : List Char) : List Char :=
  let quote := quoteOf cs
  quote :: cs.flatMap (quotedChar quote) ++ [quote]

/-- A text between quotes. -/
def quoted (text : String) : String :=
  String.ofList (quotedChars text.toList)

end Text
end PlanLogic
