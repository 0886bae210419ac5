import PlanLogic.Console.Basic
import PlanLogic.Text.Blank
import PlanLogic.Text.Lowercase

/-!
# Marks in texts

A mark is a text between brackets that starts with a small letter or one of three signs.  A slash switches off the
style that is named after it, and without a name the style that was switched on last; every other mark switches a
style on.  Whether there is a style of a name does not matter, but a style that is switched off has to be on.

A backslash before a mark makes it a text, and two backslashes before it stand for one.  Before a bracket that
starts no mark a backslash is dropped.
-/

namespace PlanLogic
namespace Console

/-- A part of a text: characters, or a mark without its brackets and the position of the first of these. -/
inductive Part where
  | plain (content : List Char)
  | mark (content : List Char) (position : Nat)
deriving Repr, DecidableEq

/-- Whether a mark can start with a character. -/
def startsMark (c : Char) : Bool :=
  (decide ('a' ≤ c) && decide (c ≤ 'z')) || c == '#' || c == '/' || c == '@'

/-- The mark that the text after an opening bracket begins with. -/
def mark? : List Char → Option (List Char)
  | [] => none
  | c :: cs =>
    let rest := cs.takeWhile fun c => c != '[' && c != ']'
    if startsMark c && (cs.drop rest.length).head? == some ']' then some (c :: rest) else none

/-- A number of backslashes. -/
def backslashes (count : Nat) : List Char :=
  List.replicate count '\\'

/-- The parts of a text that starts at a position.  The first `skipped` characters belong to a mark that was taken
already, and `slashes` backslashes before the text were not taken yet. -/
def partsFrom (skipped slashes position : Nat) : List Char → List Part
  | [] => [.plain (backslashes slashes)]
  | c :: cs =>
    match skipped with
    | skipped + 1 => partsFrom skipped slashes (position + 1) cs
    | 0 =>
      if c = '\\' then
        partsFrom 0 (slashes + 1) (position + 1) cs
      else if c = '[' then
        match mark? cs with
        | none => .plain (backslashes (slashes - 1) ++ [c]) :: partsFrom 0 0 (position + 1) cs
        | some mark =>
          let part := if slashes % 2 = 1 then .plain (c :: mark ++ [']']) else .mark mark position
          .plain (backslashes (slashes / 2)) :: part :: partsFrom (mark.length + 1) 0 (position + 1) cs
      else
        .plain (backslashes slashes ++ [c]) :: partsFrom 0 0 (position + 1) cs

/-- The parts of a text. -/
def parts (cs : List Char) : List Part :=
  partsFrom 0 0 0 cs

/-- The name of a style without blanks around it and in lower case. -/
def styleName (cs : List Char) : List Char :=
  Text.lowercase (Text.strip cs)

/-- The styles that are on after a mark, the last one first. -/
def afterMark (styles : List (List Char)) (mark : List Char) (position : Nat) : Except Fault (List (List Char)) :=
  let place := " at position " ++ toString position
  match mark.takeWhile (· != '=') with
  | '/' :: closed =>
    match styleName closed, styles with
    | [], [] => .error ⟨"closing tag '[/]'" ++ place ++ " has nothing to close"⟩
    | [], _ :: rest => .ok rest
    | name, _ =>
      if styles.contains name then
        .ok (styles.erase name)
      else
        .error ⟨"closing tag '[" ++ String.ofList mark ++ "]'" ++ place ++ " doesn't match any open tag"⟩
  | opened => .ok (styleName opened :: styles)

/-- What is left of the parts of a text without the marks, if these fit together; `styles` are on before. -/
def withoutMarksFrom (styles : List (List Char)) : List Part → Except Fault (List Char)
  | [] => .ok []
  | .plain content :: parts => (withoutMarksFrom styles parts).map (content ++ ·)
  | .mark content position :: parts =>
    match afterMark styles content position with
    | .error fault => .error fault
    | .ok next => withoutMarksFrom next parts

/-- A text without its marks. -/
def withoutMarks (text : String) : Except Fault (List Char) :=
  withoutMarksFrom [] (parts text.toList)

end Console
end PlanLogic
