import Mockup.Files.Step
import Mockup.Log.Event

/-! The log as a file of one JSON line for each event, to which lines are only added. -/

namespace Mockup.Log

open Files (Disk Step Fault)

structure Journal where
  file : Files.Path
deriving DecidableEq

inductive JournalError where
  | noDirectory (fault : Fault)
  | noFile (fault : Fault)

def JournalError.message : JournalError → String
  | noDirectory _ => "Failed to create logs directory"
  | noFile _ => "Failed to open log file"

namespace Journal

def directory (dir : Files.Path) : Files.Path := dir.join "logs"

def fileName : String := "generation.jsonl"

def create (d : Disk) (dir : Files.Path) : Except JournalError Journal × Disk :=
  match (Step.makeDirs (directory dir)).run d with
  | (d, none) => (.ok ⟨(directory dir).join fileName⟩, d)
  | (d, some f) => (.error (.noDirectory f), d)

def log (j : Journal) (d : Disk) (e : Event) : Except JournalError Unit × Disk :=
  match (Step.append j.file e.line).run d with
  | (d, none) => (.ok (), d)
  | (d, some f) => (.error (.noFile f), d)

/-- Logs entries at a time, whether or not the file takes them. -/
def logAll (j : Journal) (time : String) (d : Disk) (entries : List Entry) : Disk :=
  entries.foldl (fun d e => (j.log d { e with timestamp := time }).2) d

end Journal

end Mockup.Log
