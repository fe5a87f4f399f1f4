import Mockup.Files.Disk

/-! Steps that change a disk. A step that fails may leave a part of its changes. -/

namespace Mockup.Files

inductive Step where
  | makeDirs (p : Path)
  | write (p : Path) (text : String)
  | append (p : Path) (text : String)
  | removeDir (p : Path)
  | discard (p : Path)

namespace Disk

def makeDirs (d : Disk) (l : Location) : List String → Disk × Option Fault
  | [] => (d, none)
  | piece :: rest =>
    let next := onward l piece
    match d.entry? next with
    | some .dir => d.makeDirs next rest
    | none =>
      if isTooLong piece then (d, some .nameTooLong) else (d.set next .dir).makeDirs next rest
    | some (.file _) =>
      (d, some (if rest.all Path.isTrivial then .alreadyThere else .notADirectory))

def put (d : Disk) (p : Path) (text : Option String → String) : Disk × Option Fault :=
  match d.locate p with
  | .error e => (d, some e)
  | .ok l =>
    match d.entry? l with
    | some .dir => (d, some .isADirectory)
    | some (.file old) => (d.set l (.file (text (some old))), none)
    | none => (d.set l (.file (text none)), none)

/-- A directory whose path ends in a dot loses what is in it and stays itself. -/
def removeDir (d : Disk) (p : Path) : Disk × Option Fault :=
  match d.locate p with
  | .error e => (d, some e)
  | .ok l =>
    match d.entry? l with
    | some .dir =>
      if p.endsInDot then (d.clear l, some .invalidArgument)
      else (d.removeTree l, none)
    | some (.file _) => (d, some .notADirectory)
    | none => (d, some .notFound)

end Disk

def Step.run (d : Disk) : Step → Disk × Option Fault
  | .makeDirs p =>
    if p.text = "" then (d, none)
    else if p.hasNul then (d, some .nulInName)
    else d.makeDirs (d.start p) p.pieces
  | .write p text => d.put p fun _ => text
  | .append p text => d.put p fun old => old.getD "" ++ text
  | .removeDir p => d.removeDir p
  | .discard p => if d.has p then d.removeDir p else (d, none)

/-- A step together with what is said of it when it fails, or a plain refusal to go on. -/
inductive Act (ε : Type) where
  | perform (step : Step) (failure : Fault → ε)
  | refuse (e : ε)

variable {ε : Type}

def Act.run (d : Disk) : Act ε → Disk × Option ε
  | .perform step failure =>
    match step.run d with
    | (d, none) => (d, none)
    | (d, some f) => (d, some (failure f))
  | .refuse e => (d, some e)

def runActs (d : Disk) : List (Act ε) → Disk × Option ε
  | [] => (d, none)
  | a :: rest =>
    match a.run d with
    | (d, none) => runActs d rest
    | (d, some e) => (d, some e)

end Mockup.Files
