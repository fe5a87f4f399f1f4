import Mockup.Config.Basic
import Mockup.Files.Disk
import Mockup.Yaml.Reader

/-! Configuration files in JSON or YAML. In YAML a plain scalar can stand for a text, a number or
nothing; the field that it is given to decides. -/

namespace Mockup.Config

open Json Yaml

inductive Shape where
  | text
  | optionalText
  | texts
  | natural
  | optionalNatural
  | optionalReal

namespace Shape

def naturalOf? (n : Node) : Option Value :=
  ((n.plain?.bind natural?).bind fun k => Integer.ofInt? k).map fun k => .number (.int k)

def realOf? (n : Node) : Option Value :=
  n.plain?.bind fun cs => if isNotFinite cs then some .null else (real? cs).map ofDouble

def valueOf? : Shape → Node → Option Value
  | text, n => n.text?.map .text
  | optionalText, n => if n.isNull then some .null else n.text?.map .text
  | texts, n =>
    match n with
    | .list items => (items.mapM Node.text?).map Value.texts
    | n => if n.isNothing then some (.list []) else none
  | natural, n => naturalOf? n
  | optionalNatural, n => if n.isNull then some .null else naturalOf? n
  | optionalReal, n => if n.isNull then some .null else realOf? n

end Shape

def shapes : List (String × Shape) :=
  [("backend", .text), ("model_override", .optionalText), ("default_models", .texts),
   ("base_url", .text), ("api_key", .optionalText), ("api_key_env", .text),
   ("temperature", .optionalReal), ("max_tokens", .optionalNatural), ("timeout_secs", .natural),
   ("cli_executable", .text), ("output_dir", .text), ("public_base_url", .text),
   ("log_dir", .optionalText)]

/-- The members that a mapping gives; other keys do not count, and no field is given twice. -/
def membersOf? : List (Node × Node) → Option Members
  | [] => some []
  | (key, n) :: rest =>
    key.text?.bind fun name =>
      (membersOf? rest).bind fun m =>
        match shapes.lookup name with
        | none => some m
        | some shape =>
          if m.has name then none else (shape.valueOf? n).map fun v => (name, v) :: m

def itemsOf? : List Shape → List Node → Option (List Value)
  | _, [] => some []
  | [], _ :: _ => none
  | shape :: shapes, n :: ns =>
    (shape.valueOf? n).bind fun v => (itemsOf? shapes ns).map fun vs => v :: vs

def ofYaml? (n : Node) : Option Config :=
  match n with
  | .mapping members => (membersOf? members).bind fun m => record.ofValue? (.object m)
  | .list items => (itemsOf? (shapes.map Prod.snd) items).bind fun vs => record.ofValue? (.list vs)
  | n => if n.isNothing then some {} else none

inductive FileError where
  | unreadable (p : Files.Path) (fault : Files.Fault)
  | badJson (message : String)
  | badYaml
  | invalid (violations : List Violation)

def FileError.chain : FileError → List String
  | unreadable p _ => ["Failed to read config " ++ p.text]
  | badJson m => [m]
  | badYaml => []
  | invalid vs => ["Failed to validate loaded generation config", complaint vs]

def isJsonFile (p : Files.Path) : Bool :=
  p.extension?.any fun e => e.toList.map Char.toLower = "json".toList

def parse (asJson : Bool) (text : String) : Except FileError Config :=
  if asJson then
    match record.decoder.decode text with
    | .ok c => .ok c
    | .error f => .error (.badJson (f.message text.toList))
  else
    match (read? text).bind ofYaml? with
    | some c => .ok c
    | none => .error .badYaml

def load (d : Files.Disk) (p : Files.Path) : Except FileError Config :=
  match d.read p with
  | .error f => .error (.unreadable p f)
  | .ok text =>
    match parse (isJsonFile p) text with
    | .error e => .error e
    | .ok c => if c.violations.isEmpty then .ok c else .error (.invalid c.violations)

/-- The configuration in a file, if there is one, or else the default. -/
def loadOrDefault (d : Files.Disk) (p : Option Files.Path) : Except FileError Config :=
  match p with
  | some p => load d p
  | none => .ok {}

end Mockup.Config
