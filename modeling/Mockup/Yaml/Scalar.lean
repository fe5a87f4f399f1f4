import Mockup.Text.Hex
import Mockup.Yaml.Cursor

/-! Scalars of a YAML text: quoted ones, and plain ones that end where something else starts. -/

namespace Mockup.Yaml

/-- A line break in a quoted or plain scalar: one is a space, and of more all but one stay. -/
def folded (breaks : Nat) : List Char :=
  if breaks = 1 then [' '] else List.replicate (breaks - 1) '\n'

def skipBreaks : Nat → Cursor → Nat × Cursor
  | 0, c => (0, c)
  | fuel + 1, c =>
    let d := skipSpaces c
    match d.rest with
    | '\n' :: _ =>
      let (n, e) := skipBreaks fuel d.next
      (n + 1, e)
    | _ => (0, d)

def singleQuoted : Nat → Cursor → Option (List Char × Cursor)
  | 0, _ => none
  | fuel + 1, c =>
    match c.rest with
    | [] => none
    | '\x27' :: '\x27' :: _ => (singleQuoted fuel (c.skip 2)).map fun p => ('\x27' :: p.1, p.2)
    | '\x27' :: _ => some ([], c.next)
    | x :: _ =>
      if isSpace x || x = '\n' then
        match skipBreaks (c.rest.length + 1) c with
        | (0, _) => (singleQuoted fuel c.next).map fun p => (x :: p.1, p.2)
        | (n, d) => (singleQuoted fuel d).map fun p => (folded n ++ p.1, p.2)
      else (singleQuoted fuel c.next).map fun p => (x :: p.1, p.2)

def hexChar? (digits : Nat) (cs : List Char) : Option Char :=
  if cs.length < digits then none
  else (Text.ofHex? (cs.take digits)).bind fun n =>
    if h : n.isValidChar then some (Char.ofNatAux n h) else none

def escape? : List Char → Option (Char × Nat)
  | 'x' :: cs => (hexChar? 2 cs).map fun c => (c, 3)
  | 'u' :: cs => (hexChar? 4 cs).map fun c => (c, 5)
  | 'U' :: cs => (hexChar? 8 cs).map fun c => (c, 9)
  | c :: _ =>
    ([('0', '\x00'), ('a', '\x07'), ('b', '\x08'), ('t', '\t'), ('\t', '\t'), ('n', '\n'),
      ('v', '\x0b'), ('f', '\x0c'), ('r', '\r'), ('e', '\x1b'), (' ', ' '), ('"', '"'), ('/', '/'),
      ('\\', '\\'), ('N', '\u0085'), ('_', '\u00a0'), ('L', '\u2028'),
      ('P', '\u2029')].lookup c).map fun x => (x, 1)
  | [] => none

def doubleQuoted : Nat → Cursor → Option (List Char × Cursor)
  | 0, _ => none
  | fuel + 1, c =>
    match c.rest with
    | [] => none
    | '"' :: _ => some ([], c.next)
    | '\\' :: '\n' :: _ =>
      match skipBreaks (c.rest.length + 1) (c.skip 2) with
      | (n, d) => (doubleQuoted fuel d).map fun p => (List.replicate n '\n' ++ p.1, p.2)
    | '\\' :: cs =>
      (escape? cs).bind fun e =>
        (doubleQuoted fuel (c.skip (e.2 + 1))).map fun p => (e.1 :: p.1, p.2)
    | x :: _ =>
      if isSpace x || x = '\n' then
        match skipBreaks (c.rest.length + 1) c with
        | (0, _) => (doubleQuoted fuel c.next).map fun p => (x :: p.1, p.2)
        | (n, d) => (doubleQuoted fuel d).map fun p => (folded n ++ p.1, p.2)
      else (doubleQuoted fuel c.next).map fun p => (x :: p.1, p.2)

def isFlowMark (c : Char) : Bool := [',', '[', ']', '\x7b', '\x7d'].contains c

def startsPlain (inFlow : Bool) : List Char → Bool
  | [] => false
  | c :: rest =>
    if ['-', '?', ':'].contains c then
      !endsWord rest && !(inFlow && (rest.head?.map isFlowMark).getD false)
    else !([',', '[', ']', '\x7b', '\x7d', '#', '&', '*', '!', '|', '>', '\x27', '"', '%', '@',
      '\x60'].contains c) && !isSpace c && c ≠ '\n'

/-- The characters of a plain scalar on one line, with the blanks after them. `blank` says that a
blank stands before. -/
def plainOnLine (inFlow blank : Bool) : List Char → List Char
  | [] => []
  | c :: rest =>
    if c = '\n' || (c = '#' && blank) || (inFlow && isFlowMark c) then []
    else if c = ':' && (endsWord rest || (inFlow && (rest.head?.map isFlowMark).getD false)) then []
    else c :: plainOnLine inFlow (isSpace c) rest

def dropBlanks (cs : List Char) : List Char := (cs.reverse.dropWhile isSpace).reverse

def plainLine (inFlow : Bool) (c : Cursor) : List Char × Cursor :=
  let text := dropBlanks (plainOnLine inFlow false c.rest)
  (text, c.skip text.length)

/-- What follows of a plain scalar on later lines, which start at some column at least. -/
def plainMore (inFlow : Bool) (column : Nat) : Nat → Cursor → List Char × Cursor
  | 0, c => ([], c)
  | fuel + 1, c =>
    match skipBreaks (c.rest.length + 1) c with
    | (0, _) => ([], c)
    | (n, d) =>
      if d.column < column || atDocumentEnd d || d.rest.head? = some '#' then ([], c)
      else
        match plainLine inFlow d with
        | ([], _) => ([], c)
        | (text, e) =>
          let (more, f) := plainMore inFlow column fuel e
          (folded n ++ text ++ more, f)

end Mockup.Yaml
