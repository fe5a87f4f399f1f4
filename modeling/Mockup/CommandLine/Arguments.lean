/-! Arguments of a command line: options, operands and subcommands. An option is `--name value` or
`--name=value`; after `--` there are only operands. -/

namespace Mockup.CommandLine

inductive Takes where
  | nothing
  | text
  | texts
  | path
deriving DecidableEq

structure OptionRule where
  name : String
  takes : Takes
  required : Bool := false

structure Grammar where
  options : List OptionRule
  operand : Option OptionRule := none
  subcommands : List String := []
  hasVersion : Bool := false

inductive UsageError where
  | missingRequired
  | unknownArgument
  | invalidValue
  | repeated
  | tooManyValues
  | invalidSubcommand
  | missingSubcommand
  | nothingGiven
  | help
  | version
deriving DecidableEq, Repr

def UsageError.message : UsageError → String
  | missingRequired => "a required argument was not given"
  | unknownArgument => "unexpected argument"
  | invalidValue => "a value is missing or invalid"
  | repeated => "an argument was given more than once"
  | tooManyValues => "an argument takes no value"
  | invalidSubcommand => "unrecognized subcommand"
  | missingSubcommand => "a subcommand is required"
  | nothingGiven => "a subcommand is required"
  | help => "generate, normalize, compile, fallback, delete"
  | version => "0.1.0"

abbrev Given := List (String × List String)

namespace Given

def has (g : Given) (name : String) : Bool := (g.lookup name).isSome

def texts (g : Given) (name : String) : List String := (g.lookup name).getD []

def text? (g : Given) (name : String) : Option String := (g.texts name).head?

def add (g : Given) (name : String) (texts : List String) : Given :=
  (name, g.texts name ++ texts) :: g.filter fun p => p.1 ≠ name

end Given

structure Pending where
  rule : OptionRule
  texts : List String

structure Scan where
  given : Given := []
  pending : Option Pending := none
  awaiting : Bool := false
  operandSeen : Bool := false
  onlyOperands : Bool := false

namespace Scan

def accept (s : Scan) (rule : OptionRule) (texts : List String) : Except UsageError Scan :=
  if rule.takes ≠ .nothing && texts.isEmpty then .error .invalidValue
  else if rule.takes ≠ .texts && s.given.has rule.name then .error .repeated
  else if rule.takes = .path && texts.contains "" then .error .invalidValue
  else .ok { s with given := s.given.add rule.name texts }

def settle (s : Scan) : Except UsageError Scan :=
  match s.pending with
  | none => .ok s
  | some p => { s with pending := none, awaiting := false }.accept p.rule p.texts

def hold (s : Scan) (rule : OptionRule) (texts : List String) : Except UsageError Scan :=
  s.settle.map fun s => { s with pending := some ⟨rule, texts⟩, awaiting := texts.isEmpty }

def option (s : Scan) (rule : OptionRule) (attached : Option String) : Except UsageError Scan :=
  if rule.takes = .nothing then
    if attached.isSome then .error .tooManyValues
    else s.settle.bind fun s => s.accept rule []
  else
    match attached with
    | some text => s.settle.bind fun s => s.accept rule [text]
    | none => s.hold rule []

def request (s : Scan) (attached : Option String) (e : UsageError) : Except UsageError Scan :=
  if attached.isSome then .error .tooManyValues else s.settle.bind fun _ => .error e

end Scan

def splitLong (cs : List Char) : String × Option String :=
  (String.ofList (cs.takeWhile (· ≠ '=')),
    match cs.dropWhile (· ≠ '=') with
    | [] => none
    | _ :: value => some (String.ofList value))

inductive Shape where
  | endOfOptions
  | long (name : String) (attached : Option String)
  | short (letter : Char)
  | plain (text : String)

def shapeOf (arg : String) : Shape :=
  match arg.toList with
  | ['-', '-'] => .endOfOptions
  | '-' :: '-' :: cs => .long (splitLong cs).1 (splitLong cs).2
  | '-' :: c :: _ => .short c
  | _ => .plain arg

namespace Grammar

def extra (g : Grammar) (s : Scan) (text : String) : UsageError :=
  if g.subcommands.isEmpty || (s.onlyOperands && ("help" :: g.subcommands).contains text) then
    .unknownArgument
  else .invalidSubcommand

def operandText (g : Grammar) (s : Scan) (text : String) : Except UsageError Scan :=
  match g.operand with
  | some rule =>
    if s.operandSeen then .error (g.extra s text)
    else { s with operandSeen := true }.hold rule [text]
  | none => .error (g.extra s text)

def plainText (g : Grammar) (s : Scan) (text : String) : Except UsageError Scan :=
  match s.pending, s.awaiting with
  | some p, true => .ok { s with pending := some ⟨p.rule, [text]⟩, awaiting := false }
  | _, _ => g.operandText s text

def long (g : Grammar) (s : Scan) (name : String) (attached : Option String) :
    Except UsageError Scan :=
  if name = "help" then s.request attached .help
  else if name = "version" && g.hasVersion then s.request attached .version
  else
    match g.options.find? fun o => o.name = name with
    | some rule => s.option rule attached
    | none => .error .unknownArgument

def short (g : Grammar) (s : Scan) (letter : Char) : Except UsageError Scan :=
  if letter = 'h' then s.request none .help
  else if letter = 'V' && g.hasVersion then s.request none .version
  else .error .unknownArgument

def step (g : Grammar) (s : Scan) (arg : String) : Except UsageError Scan :=
  if s.onlyOperands then g.operandText s arg
  else
    match shapeOf arg with
    | .endOfOptions => .ok { s with onlyOperands := true }
    | .long name attached => g.long s name attached
    | .short letter => g.short s letter
    | .plain text => g.plainText s text

def helpFor (g : Grammar) : List String → UsageError
  | [] => .help
  | name :: rest =>
    if ("help" :: g.subcommands).contains name && rest.isEmpty then .help else .invalidSubcommand

/-- Scans arguments up to a subcommand, which is given with those after it. -/
def scan (g : Grammar) (s : Scan) :
    List String → Except UsageError (Scan × Option (String × List String))
  | [] => .ok (s, none)
  | arg :: rest =>
    let free := !s.onlyOperands && !s.awaiting
    if free && arg = "help" && !g.subcommands.isEmpty then .error (g.helpFor rest)
    else if free && g.subcommands.contains arg then .ok (s, some (arg, rest))
    else
      match g.step s arg with
      | .error e => .error e
      | .ok s => g.scan s rest

def required (g : Grammar) : List OptionRule :=
  (g.options ++ g.operand.toList).filter OptionRule.required

def read (g : Grammar) (args : List String) : Except UsageError Given :=
  match g.scan {} args with
  | .error e => .error e
  | .ok (s, _) =>
    s.settle.bind fun s =>
      if g.required.all fun rule => s.given.has rule.name then .ok s.given
      else .error .missingRequired

end Grammar

end Mockup.CommandLine
