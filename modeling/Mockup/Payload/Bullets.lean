import Mockup.Text.Blank
import Mockup.Text.DecimalDigit
import Mockup.Text.Lines

/-! List items in plain notes. An item is a line with a marker, one of `-`, `*` and `•` or a number
with a point or a closing parenthesis, and space after it. -/

namespace Mockup.Bullets

def afterMarker? : List Char → Option (List Char)
  | [] => none
  | c :: cs =>
    if c = '-' || c = '*' || c = '•' then some cs
    else if Text.isDecimalDigit c then
      match cs.dropWhile Text.isDecimalDigit with
      | d :: rest => if d = '.' || d = ')' then some rest else none
      | [] => none
    else none

def itemOfLine? (line : List Char) : Option (List Char) :=
  match afterMarker? (line.dropWhile Text.isBlank) with
  | some (c :: rest) => if Text.isBlank c then some rest else none
  | _ => none

def deletePairs (m : Char) : List Char → List Char
  | [] => []
  | [c] => [c]
  | c :: d :: cs => if c = m ∧ d = m then deletePairs m cs else c :: deletePairs m (d :: cs)

def isEmphasis (c : Char) : Bool := c = '*' || c = '_' || c = '\x60'

def isPunctuation (c : Char) : Bool :=
  c = '.' || c = ',' || c = ';' || c = ':' || c = '!' || c = '?'

def clean (item : List Char) : List Char :=
  let plain := Text.trim (deletePairs '_' (deletePairs '*' item))
  let bare := Text.trim (Text.strip isEmphasis plain)
  Text.trim (Text.dropEnd isPunctuation bare)

def ofLine? (line : List Char) : Option String :=
  match (itemOfLine? line).map clean with
  | some (c :: cs) => some (String.ofList (c :: cs))
  | _ => none

def extract (notes : String) : List String := (Text.lines notes.toList).filterMap ofLine?

end Mockup.Bullets
