import Mockup.Text.Decimal

/-! A place in a YAML text: the column and what follows. -/

namespace Mockup.Yaml

structure Cursor where
  column : Nat
  rest : List Char

namespace Cursor

def start (cs : List Char) : Cursor := ⟨0, cs⟩

def next (c : Cursor) : Cursor :=
  match c.rest with
  | [] => c
  | '\n' :: cs => ⟨0, cs⟩
  | _ :: cs => ⟨c.column + 1, cs⟩

def skip (c : Cursor) : Nat → Cursor
  | 0 => c
  | n + 1 => c.next.skip n

end Cursor

def isSpace (c : Char) : Bool := c = ' ' || c = '\t'

def endsWord : List Char → Bool
  | [] => true
  | c :: _ => isSpace c || c = '\n'

def lineRest (cs : List Char) : Nat := (cs.takeWhile (· ≠ '\n')).length

def skipSpaces (c : Cursor) : Cursor := c.skip (c.rest.takeWhile isSpace).length

/-- The place after a line on which nothing or only a comment is left. A comment needs a blank
before it. -/
def lineEnd? (c : Cursor) : Option Cursor :=
  let d := skipSpaces c
  match d.rest with
  | [] => some d
  | '\n' :: _ => some d.next
  | '#' :: _ =>
    if d.column = 0 || d.column ≠ c.column then some (d.skip (lineRest d.rest)).next else none
  | _ => none

def skipIndent (inFlow : Bool) (c : Cursor) : Cursor :=
  if inFlow || c.column ≠ 0 then skipSpaces c
  else c.skip (c.rest.takeWhile (· = ' ')).length

def skipLines (inFlow : Bool) : Nat → Cursor → Cursor
  | 0, c => c
  | fuel + 1, c =>
    match lineEnd? c with
    | some d => if d.rest.isEmpty then d else skipLines inFlow fuel d
    | none => skipIndent inFlow c

def skipBlank (c : Cursor) : Cursor := skipLines true (c.rest.length + 1) c

def skipToToken (c : Cursor) : Cursor := skipLines false (c.rest.length + 1) c

def atMarker (mark : Char) (c : Cursor) : Bool :=
  c.column = 0 &&
    match c.rest with
    | x :: y :: z :: rest => x = mark && y = mark && z = mark && endsWord rest
    | _ => false

def atDocumentEnd (c : Cursor) : Bool := c.rest.isEmpty || atMarker '.' c || atMarker '-' c

end Mockup.Yaml
