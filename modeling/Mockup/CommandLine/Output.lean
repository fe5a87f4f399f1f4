import Mockup.CommandLine.Execution

/-! What the program prints. -/

namespace Mockup.CommandLine

def line (words : List String) : String := " ".intercalate words ++ "\n"

def sourceLine : Generation.Source → String
  | .model candidate => line ["Generated with", candidate]
  | .fallback reason => line ["Used fallback:", reason.message]

def publishedLine (b : PublishedBundle) : String :=
  line [if b.reused then "Unchanged:" else "Published:", b.publicUrl]

def output (command : Command) : Result → Except Failure String
  | .generated r =>
    .ok (sourceLine r.outcome.source ++ "\n" ++ line [r.outcome.message] ++ "\n" ++
      line ["Specification:", r.specPath.text] ++ publishedLine r.published)
  | .normalized (some spec) => .ok (line [spec.indented])
  | .normalized none =>
    match command with
    | .normalize args => .error (.notAnObject args.file)
    | _ => .ok ""
  | .compiled b => .ok (publishedLine b)
  | .synthesized spec => .ok (line [spec.indented])
  | .deleted any =>
    match command with
    | .delete owner =>
      .ok (line [if any then "Deleted bundles for" else "Nothing published for", owner])
    | _ => .ok ""

def UsageError.code : UsageError → Nat
  | .help => 0
  | .version => 0
  | _ => 2

end Mockup.CommandLine
