import Mockup.CommandLine.Output
import Mockup.Text.Hex
import Std.Time.Format

/-! The program. It takes the files that a command may touch from the disk, executes the command on
them, and writes back what has changed. No model can be reached from here, so generations end with
the specification made from the project alone. -/

open Mockup Mockup.CommandLine
open Mockup.Files (Disk Location Entry)

namespace Mockup.Program

def namesOf (path : String) : Location :=
  (Files.Path.mk path).pieces.filter (!Files.Path.isTrivial ·)

def pathAt (l : Location) : String := "/" ++ "/".intercalate l

def locationOf (home : Location) (p : Files.Path) : Location :=
  p.pieces.foldl Disk.onward (if p.isAbsolute then [] else home)

def withDirs (d : Disk) (l : Location) : Disk :=
  (List.range (l.length + 1)).foldl
    (fun d n => if (d.entry? (l.take n)).isNone then d.set (l.take n) .dir else d) d

partial def take (d : Disk) (l : Location) : IO Disk := do
  let path ← try IO.FS.realPath (pathAt l) catch _ => return d
  unless ← path.pathExists do return d
  let mut d := withDirs d l.dropLast
  if ← path.isDir then
    d := d.set l .dir
    for entry in ← path.readDir do
      d ← take d (l ++ [entry.fileName])
    return d
  else
    let bytes ← IO.FS.readBinFile path
    return match String.fromUTF8? bytes with
      | some text => d.set l (.file text)
      | none => d

def putBack (old new : Disk) : IO Unit := do
  for (l, _) in old.entries do
    if (new.entry? l).isNone then
      try IO.FS.removeFile (pathAt l) catch _ =>
        try IO.FS.removeDirAll (pathAt l) catch _ => pure ()
  for (l, e) in new.entries do
    if old.entry? l ≠ some e then
      match e with
      | .dir => IO.FS.createDirAll (pathAt l)
      | .file text =>
        IO.FS.createDirAll (pathAt l.dropLast)
        IO.FS.writeFile (pathAt l) text

def environment : IO Config.Environment := do
  let names := ["PROTOFORGE_MODEL", "PROTOFORGE_BASE_URL", "PROTOFORGE_BACKEND",
    "PROTOFORGE_API_KEY", "OPENAI_API_KEY"]
  let vars ← names.filterMapM fun name => do
    return (← IO.getEnv name).map fun v => (name, v)
  return .ofList vars

def inputs : Command → List Files.Path
  | .generate args => args.history.toList
  | .normalize args => args.file :: args.notes.toList
  | .compile args => [args.spec]
  | _ => []

def occasion : IO Occasion := do
  let now ← Std.Time.Timestamp.now
  let time := (Std.Time.DateTime.ofTimestamp now Std.Time.TimeZone.ZoneRules.UTC).toISO8601String
  let digits ← (List.range 8).mapM fun _ => do return Text.hexDigit (← IO.rand 0 15)
  return ⟨time, String.ofList digits⟩

def fail (message : String) (code : UInt32) : IO UInt32 := do
  IO.eprintln message
  return code

def failure (e : Failure) : IO UInt32 :=
  match e.chain with
  | [] => fail "Error" 1
  | m :: causes => fail ("\n".intercalate (("Error: " ++ m) :: causes)) 1

def run (i : Invocation) : IO UInt32 := do
  let home := namesOf (← IO.currentDir).toString
  let mut d := withDirs { home } home
  for p in i.config.toList ++ inputs i.command do
    d ← take d (locationOf home p)
  match i.config? (← environment) d with
  | .error e => failure e
  | .ok c =>
    for dir in c.outputDir :: c.logDir.toList do
      d ← take d (locationOf home ⟨dir⟩)
    let client : Option (Chat.Client Unit) := none
    let (result, new, _) := execute (← occasion) c client () d i.command
    putBack d new
    match result.bind (output i.command) with
    | .error e => failure e
    | .ok text =>
      IO.print text
      return 0

end Mockup.Program

def main (args : List String) : IO UInt32 :=
  match parse args with
  | .error e => Program.fail ("error: " ++ e.message) e.code.toUInt32
  | .ok i => Program.run i
