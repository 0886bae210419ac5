import PlanLogic.Text.LowerTable

/-!
# Lower case

The full lower-case form of a text.  Two rules go beyond a map of single characters: the capital I with dot
above becomes two code points, and a capital sigma at the end of a word becomes the final small sigma.
-/

namespace PlanLogic
namespace Text

/-- Whether a code point belongs to a run. -/
def LowerRun.contains (run : LowerRun) (code : Nat) : Bool :=
  decide (run.first ≤ code) && decide (code ≤ run.last) && (code - run.first) % run.step == 0

/-- The simple lower-case form of a character. -/
def simpleLower (c : Char) : Char :=
  match lowerRuns.find? fun run => run.contains c.toNat with
  | some run => Char.ofNat (c.toNat + run.shift).toNat
  | none => c

/-- Whether the first character that is not skipped is cased. -/
def startsCased (cs : List Char) : Bool :=
  match cs.dropWhile (inRanges caseIgnorableRanges) with
  | [] => false
  | c :: _ => inRanges casedRanges c

/-- The lower-case form of one character between the reversed text before it and the text after it. -/
def lowerAt (before : List Char) (c : Char) (after : List Char) : List Char :=
  if c = 'Σ' then
    if startsCased before && !startsCased after then ['ς'] else ['σ']
  else if c = 'İ' then
    ['i', '\u0307']
  else
    [simpleLower c]

/-- The lower-case form of the text after a reversed `before`. -/
def lowerFrom (before : List Char) : List Char → List Char
  | [] => []
  | c :: cs => lowerAt before c cs ++ lowerFrom (c :: before) cs

/-- The full lower-case form of a text. -/
def lowercase (cs : List Char) : List Char :=
  lowerFrom [] cs

end Text
end PlanLogic
