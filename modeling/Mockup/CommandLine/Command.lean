import Mockup.CommandLine.Arguments
import Mockup.Config.Basic
import Mockup.Files.Path
import Mockup.Payload.Normal
import Mockup.Project

/-! The commands of the program, and how they are written. -/

namespace Mockup.CommandLine

structure GenerateArgs where
  project : Project
  prompt : Option String
  history : Option Files.Path
  owner : String

structure NormalizeArgs where
  file : Files.Path
  title : String
  summary : String
  goal : Option String
  focus : Option String
  notes : Option Files.Path

structure CompileArgs where
  spec : Files.Path
  owner : String

inductive Command where
  | generate (args : GenerateArgs)
  | normalize (args : NormalizeArgs)
  | compile (args : CompileArgs)
  | fallback (project : Project)
  | delete (owner : String)

structure Invocation where
  debug : Bool
  config : Option Files.Path
  outputDir : Option Files.Path
  command : Command

def common : List OptionRule :=
  [⟨"debug", .nothing, false⟩, ⟨"config", .path, false⟩, ⟨"output-dir", .path, false⟩]

def projectOptions : List OptionRule :=
  [⟨"title", .text, true⟩, ⟨"summary", .text, false⟩, ⟨"goal", .texts, false⟩,
   ⟨"north-star", .text, false⟩, ⟨"focus", .text, false⟩, ⟨"phase", .text, false⟩]

def ownerOption : OptionRule := ⟨"owner", .text, false⟩

def subcommands : List (String × Grammar) :=
  [("generate",
     { options := common ++ projectOptions ++
         [⟨"prompt", .text, false⟩, ⟨"history", .path, false⟩, ownerOption] }),
   ("normalize",
     { options := common ++
         [⟨"title", .text, false⟩, ⟨"summary", .text, false⟩, ⟨"goal", .text, false⟩,
          ⟨"focus", .text, false⟩, ⟨"notes", .path, false⟩]
       operand := some ⟨"file", .path, true⟩ }),
   ("compile", { options := common ++ [ownerOption], operand := some ⟨"spec", .path, true⟩ }),
   ("fallback", { options := common ++ projectOptions }),
   ("delete", { options := common ++ [ownerOption] })]

def program : Grammar where
  options := common
  subcommands := subcommands.map Prod.fst
  hasVersion := true

def path? (g : Given) (name : String) : Option Files.Path := (g.text? name).map Files.Path.mk

def pathOf (g : Given) (name : String) : Files.Path := ⟨(g.text? name).getD ""⟩

def projectOf (g : Given) : Project where
  title := (g.text? "title").getD ""
  summary := g.text? "summary"
  goals := g.texts "goal"
  northStar := g.text? "north-star"
  focus := g.text? "focus"
  phase := g.text? "phase"

def ownerOf (g : Given) : String := (g.text? "owner").getD "local"

def commandOf (name : String) (g : Given) : Command :=
  if name = "generate" then
    .generate ⟨projectOf g, g.text? "prompt", path? g "history", ownerOf g⟩
  else if name = "normalize" then
    .normalize ⟨pathOf g "file", (g.text? "title").getD "", (g.text? "summary").getD "",
      g.text? "goal", g.text? "focus", path? g "notes"⟩
  else if name = "compile" then .compile ⟨pathOf g "spec", ownerOf g⟩
  else if name = "fallback" then .fallback (projectOf g)
  else .delete (ownerOf g)

def either {α : Type} (own outer : Given) (f : Given → Option α) : Option α :=
  (f own).or (f outer)

def invocation (name : String) (outer own : Given) : Invocation where
  debug := own.has "debug" || outer.has "debug"
  config := either own outer fun g => path? g "config"
  outputDir := either own outer fun g => path? g "output-dir"
  command := commandOf name own

/-- Reads a command line without the name of the program. What is wrong after the name of the
command goes before what is wrong with the last argument in front of it. -/
def parse (args : List String) : Except UsageError Invocation :=
  match program.scan {} args with
  | .error e => .error e
  | .ok (s, none) =>
    s.settle.bind fun s =>
      .error (if s.given.isEmpty then .nothingGiven else .missingSubcommand)
  | .ok (s, some (name, rest)) =>
    match subcommands.lookup name with
    | none => .error .invalidSubcommand
    | some g =>
      (g.read rest).bind fun own => s.settle.map fun s => invocation name s.given own

def Invocation.adjust (i : Invocation) (c : Config) : Config :=
  match i.outputDir with
  | some dir => { c with outputDir := dir.text }
  | none => c

end Mockup.CommandLine
