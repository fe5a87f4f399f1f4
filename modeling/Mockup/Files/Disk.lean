import Mockup.Files.Path

/-! A disk: files and directories at locations. A location lists the names from the top. -/

namespace Mockup.Files

inductive Entry where
  | file (text : String)
  | dir
deriving DecidableEq

abbrev Location := List String

structure Disk where
  entries : List (Location × Entry) := []
  home : Location := []

inductive Fault where
  | notFound
  | alreadyThere
  | notADirectory
  | isADirectory
  | invalidArgument
  | nameTooLong
  | nulInName
deriving DecidableEq, Repr

namespace Fault

def message : Fault → String
  | notFound => "No such file or directory (os error 2)"
  | alreadyThere => "File exists (os error 17)"
  | notADirectory => "Not a directory (os error 20)"
  | isADirectory => "Is a directory (os error 21)"
  | invalidArgument => "Invalid argument (os error 22)"
  | nameTooLong => "File name too long (os error 36)"
  | nulInName => "file name contained an unexpected NUL byte"

end Fault

namespace Disk

def entry? (d : Disk) (l : Location) : Option Entry :=
  if l = [] then some .dir else d.entries.lookup l

def set (d : Disk) (l : Location) (e : Entry) : Disk :=
  { d with entries := (l, e) :: d.entries.filter fun p => p.1 ≠ l }

def removeTree (d : Disk) (l : Location) : Disk :=
  { d with entries := d.entries.filter fun p => !l.isPrefixOf p.1 }

def clear (d : Disk) (l : Location) : Disk :=
  { d with entries := d.entries.filter fun p => p.1 = l || !l.isPrefixOf p.1 }

def onward (l : Location) (piece : String) : Location :=
  if Path.isTrivial piece then l
  else if piece = ".." then l.dropLast
  else l ++ [piece]

def isTooLong (name : String) : Bool := 255 < name.utf8ByteSize

/-- Where a path leads. Every step starts from a directory; the last one may lead to nothing. -/
def walk (d : Disk) (l : Location) : List String → Except Fault Location
  | [] => .ok l
  | piece :: rest =>
    match d.entry? l with
    | some .dir => if isTooLong piece then .error .nameTooLong else d.walk (onward l piece) rest
    | some (.file _) => .error .notADirectory
    | none => .error .notFound

def start (d : Disk) (p : Path) : Location := if p.isAbsolute then [] else d.home

def locate (d : Disk) (p : Path) : Except Fault Location :=
  if p.text = "" then .error .notFound
  else if p.hasNul then .error .nulInName
  else d.walk (d.start p) p.pieces

def find? (d : Disk) (p : Path) : Option Entry := (d.locate p).toOption.bind d.entry?

def has (d : Disk) (p : Path) : Bool := (d.find? p).isSome

def read (d : Disk) (p : Path) : Except Fault String :=
  match d.locate p with
  | .error e => .error e
  | .ok l =>
    match d.entry? l with
    | some (.file text) => .ok text
    | some .dir => .error .isADirectory
    | none => .error .notFound

end Disk

end Mockup.Files
