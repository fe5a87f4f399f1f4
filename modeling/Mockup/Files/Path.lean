import Mockup.Text.Lines

/-! Paths of files. Two paths are the same when their parts are: repeated slashes and dots after the
first part do not count, and `..` stays a part. -/

namespace Mockup.Files

structure Path where
  text : String
deriving DecidableEq

inductive Part where
  | root
  | here
  | parent
  | name (s : String)
deriving DecidableEq, Repr

namespace Path

def isAbsolute (p : Path) : Bool := p.text.toList.head? = some '/'

def hasNul (p : Path) : Bool := p.text.toList.contains '\x00'

def pieces (p : Path) : List String := (Text.splitAt '/' p.text.toList).map String.ofList

/-- Whether the last piece is a dot; slashes may follow it. -/
def endsInDot (p : Path) : Bool := (p.pieces.filter (· ≠ "")).getLast? = some "."

def isTrivial (piece : String) : Bool := piece = "" || piece = "."

def partOf (piece : String) : Part := if piece = ".." then .parent else .name piece

def front (p : Path) : List Part :=
  if p.isAbsolute then [.root] else if p.pieces.head? = some "." then [.here] else []

def parts (p : Path) : List Part := p.front ++ (p.pieces.filter (!isTrivial ·)).map partOf

def same (p q : Path) : Bool := p.parts = q.parts

def join (p : Path) (entry : String) : Path :=
  if entry.toList.head? = some '/' || p.text = "" then ⟨entry⟩
  else if p.text.toList.getLast? = some '/' then ⟨p.text ++ entry⟩
  else ⟨p.text ++ "/" ++ entry⟩

def below? (root p : Path) : Option (List Part) :=
  if root.parts.isPrefixOf p.parts then some (p.parts.drop root.parts.length) else none

/-- Whether a path starts with a root and does not step up after it. -/
def isInside (root p : Path) : Bool :=
  match root.below? p with
  | some rest => !rest.contains .parent
  | none => false

def extensionOf? (name : String) : Option String :=
  let cs := name.toList
  match cs.reverse.dropWhile (· ≠ '.') with
  | _ :: _ :: _ => some (String.ofList (cs.reverse.takeWhile (· ≠ '.')).reverse)
  | _ => none

def extension? (p : Path) : Option String :=
  match p.parts.getLast? with
  | some (.name s) => extensionOf? s
  | _ => none

end Path

end Mockup.Files
