import Mockup.Text.LowerCase.Table

/-! Lower-casing. Every character is replaced by itself, except that `İ` becomes two characters and
that a capital sigma at the end of a word becomes a final sigma. -/

namespace Mockup.Text

namespace LowerCase

def isCased (c : Char) : Bool := inRanges casedRanges c

def isIgnorable (c : Char) : Bool := inRanges ignorableRanges c

def beyondAscii (c : Char) : List Char :=
  if c = '\u0130' then ['i', '\u0307']
  else match runs.find? fun r =>
      r.first ≤ c.toNat && c.toNat ≤ r.last && (c.toNat - r.first) % r.step = 0 with
    | some r => [Char.ofNat ((c.toNat : Int) + r.offset).toNat]
    | none => [c]

def char (c : Char) : List Char :=
  if c.toNat < 0x80 then
    if 'A' ≤ c && c ≤ 'Z' then [Char.ofNat (c.toNat + 32)] else [c]
  else beyondAscii c

def meetsCased (cs : List Char) : Bool :=
  match cs.dropWhile isIgnorable with
  | [] => false
  | c :: _ => isCased c

def scan (before : List Char) : List Char → List Char
  | [] => []
  | c :: cs =>
    (if c = '\u03a3' then
      if meetsCased before && !meetsCased cs then ['\u03c2'] else ['\u03c3']
    else char c) ++ scan (c :: before) cs

end LowerCase

def lowerCase (s : String) : String := String.ofList (LowerCase.scan [] s.toList)

end Mockup.Text
