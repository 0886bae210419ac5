/-!
# Key patterns

A pattern is matched against the whole of a key, byte by byte of their UTF-8 forms.  A star stands for any run
of bytes, also an empty one, and a question mark for one byte; every other byte stands for itself.
-/

namespace PlanLogic
namespace Store

/-- The byte of a star. -/
def starByte : UInt8 := 42

/-- The byte of a question mark. -/
def questionByte : UInt8 := 63

/-- The ends of a list, from the whole list to the empty one. -/
def ends : List UInt8 → List (List UInt8)
  | [] => [[]]
  | byte :: bytes => (byte :: bytes) :: ends bytes

/-- Whether a pattern matches the whole of a run of bytes. -/
def matchesBytes : List UInt8 → List UInt8 → Bool
  | [], key => key.isEmpty
  | byte :: pattern, key =>
    if byte = starByte then
      (ends key).any (matchesBytes pattern)
    else
      match key with
      | [] => false
      | first :: rest => (byte == questionByte || byte == first) && matchesBytes pattern rest

/-- The bytes of a text in UTF-8. -/
def utf8 (text : String) : List UInt8 :=
  text.toUTF8.toList

/-- Whether a pattern matches a key. -/
def matchesKey (pattern key : String) : Bool :=
  matchesBytes (utf8 pattern) (utf8 key)

end Store
end PlanLogic
