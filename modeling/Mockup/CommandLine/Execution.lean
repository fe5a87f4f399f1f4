import Mockup.Chat.Client
import Mockup.CommandLine.Command
import Mockup.Config.Environment
import Mockup.Config.File
import Mockup.Generation.Run
import Mockup.Log.Journal
import Mockup.Store.Basic

/-! What the commands do on a disk. -/

namespace Mockup.CommandLine

open Files (Disk)

inductive Failure where
  | config (e : Config.FileError)
  | noHistory (p : Files.Path) (fault : Files.Fault)
  | badHistory (p : Files.Path) (why : String)
  | unreadable (p : Files.Path) (fault : Files.Fault)
  | notASpec (p : Files.Path) (why : String)
  | invalidSpec (p : Files.Path) (why : SpecError)
  | store (e : StoreError)
  | log (e : Log.JournalError)
  | unwritten (p : Files.Path) (fault : Files.Fault)
  | notAnObject (p : Files.Path)

namespace Failure

/-- The messages of a failure, the outermost first, without those of the disk. -/
def chain : Failure → List String
  | config e => e.chain
  | noHistory p _ => ["Failed to read history " ++ p.text]
  | badHistory p why => ["History " ++ p.text ++ " is not a list of messages", why]
  | unreadable p _ => ["Failed to read " ++ p.text]
  | notASpec p why => [p.text ++ " is not a specification", why]
  | invalidSpec p why => [p.text ++ " failed validation", why.message]
  | store e => e.message :: e.reason?.toList
  | log e => [e.message]
  | unwritten p _ => ["Failed to write " ++ p.text]
  | notAnObject p => [p.text ++ " is not a JSON object"]

end Failure

def loadHistory (d : Disk) (p : Files.Path) : Except Failure (List Chat.Message) :=
  match d.read p with
  | .error f => .error (.noHistory p f)
  | .ok text =>
    match Chat.Message.history.decode text with
    | .ok ms => .ok ms
    | .error f => .error (.badHistory p (f.message text.toList))

def historyOf (d : Disk) (p : Option Files.Path) : Except Failure (List Chat.Message) :=
  match p with
  | some p => loadHistory d p
  | none => .ok []

/-- The journal of a configuration. One that cannot be made is done without. -/
def journalFor (c : Config) (d : Disk) : Option Log.Journal × Disk :=
  match c.logDir with
  | none => (none, d)
  | some dir =>
    match Log.Journal.create d ⟨dir⟩ with
    | (.ok j, d) => (some j, d)
    | (.error _, d) => (none, d)

def publicationEntry (owner : String) : Except StoreError PublishedBundle → Log.Entry
  | .ok b => .bundlePublished b.slug b.publicUrl b.reused
  | .error e => .error ("Publishing for " ++ owner ++ " failed") (some e.account)

structure Occasion where
  time : String
  spare : String

def note (journal : Option Log.Journal) (time : String) (d : Disk) (e : Log.Entry) :
    Except Failure Unit × Disk :=
  match journal with
  | none => (.ok (), d)
  | some j =>
    let (r, d) := j.log d { e with timestamp := time }
    (r.mapError .log, d)

/-- Publishes a specification and logs it. A log that cannot be written is a failure. -/
def publishLogged (o : Occasion) (s : Store) (journal : Option Log.Journal) (d : Disk)
    (owner : String) (spec : Spec) : Except Failure PublishedBundle × Disk :=
  let (result, d) := s.publish d o.spare o.time owner spec
  match note journal o.time d (publicationEntry owner result) with
  | (.error e, d) => (.error e, d)
  | (.ok (), d) => (result.mapError .store, d)

structure Report where
  outcome : Generation.Outcome
  specPath : Files.Path
  published : PublishedBundle

def specName : String := "spec.json"

variable {σ : Type}

def generate (o : Occasion) (c : Config) (client : Option (Chat.Client σ)) (s : σ) (d : Disk)
    (args : GenerateArgs) : Except Failure Report × Disk × σ :=
  match historyOf d args.history with
  | .error e => (.error e, d, s)
  | .ok history =>
    let (journal, d) := journalFor c d
    let run := Generation.run c client args.project history args.prompt s
    let d :=
      match journal with
      | some j => j.logAll o.time d run.entries
      | none => d
    let store := Store.ofConfig c
    match publishLogged o store journal d args.owner run.outcome.spec with
    | (.error e, d) => (.error e, d, run.state)
    | (.ok published, d) =>
      let p := (store.root.join args.owner).join specName
      match (Files.Step.write p run.outcome.spec.indented).run d with
      | (d, some f) => (.error (.unwritten p f), d, run.state)
      | (d, none) => (.ok ⟨run.outcome, p, published⟩, d, run.state)

def textOf (d : Disk) (p : Option Files.Path) : Except Failure (Option String) :=
  match p with
  | none => .ok none
  | some p =>
    match d.read p with
    | .ok text => .ok (some text)
    | .error f => .error (.unreadable p f)

def normalize (d : Disk) (args : NormalizeArgs) : Except Failure (Option Spec) :=
  match d.read args.file with
  | .error f => .error (.unreadable args.file f)
  | .ok raw =>
    (textOf d args.notes).map fun notes =>
      (Payload.normalize ⟨args.title, args.summary, args.goal, args.focus.getD "", notes⟩
        (.text raw)).toOption

def validSpec (d : Disk) (p : Files.Path) : Except Failure Spec :=
  match d.read p with
  | .error f => .error (.unreadable p f)
  | .ok text =>
    match Spec.decode text with
    | .error f => .error (.notASpec p (f.message text.toList))
    | .ok spec =>
      match spec.validate with
      | .error e => .error (.invalidSpec p e)
      | .ok () => .ok spec

def compile (o : Occasion) (c : Config) (d : Disk) (args : CompileArgs) :
    Except Failure PublishedBundle × Disk :=
  match validSpec d args.spec with
  | .error e => (.error e, d)
  | .ok spec =>
    let (journal, d) := journalFor c d
    publishLogged o (Store.ofConfig c) journal d args.owner spec

def fallback (p : Project) : Spec := Synthesis.spec p p.focus p.phase

def delete (c : Config) (d : Disk) (owner : String) : Except Failure Bool × Disk :=
  match (Store.ofConfig c).deleteOwner d owner with
  | (r, d) => (r.mapError .store, d)

inductive Result where
  | generated (report : Report)
  | normalized (spec : Option Spec)
  | compiled (published : PublishedBundle)
  | synthesized (spec : Spec)
  | deleted (any : Bool)

def execute (o : Occasion) (c : Config) (client : Option (Chat.Client σ)) (s : σ) (d : Disk) :
    Command → Except Failure Result × Disk × σ
  | .generate args =>
    let (r, d, s) := generate o c client s d args
    (r.map .generated, d, s)
  | .normalize args => ((normalize d args).map .normalized, d, s)
  | .compile args =>
    let (r, d) := compile o c d args
    (r.map .compiled, d, s)
  | .fallback project => (.ok (.synthesized (fallback project)), d, s)
  | .delete owner =>
    let (r, d) := delete c d owner
    (r.map .deleted, d, s)

/-- The configuration of an invocation: its file, the environment, and then its own options. -/
def Invocation.config? (i : Invocation) (env : Config.Environment) (d : Disk) :
    Except Failure Config :=
  match Config.loadOrDefault d i.config with
  | .error e => .error (.config e)
  | .ok c => .ok (i.adjust (c.withEnvironment env))

end Mockup.CommandLine
