import Mockup.Chat.Client

/-! Completions by a command of the system, to which the conversation is handed as one text. -/

namespace Mockup.Chat

structure CommandService where
  executable : String
  extraArgs : List String := []

namespace CommandService

def arguments (s : CommandService) (call : Call) : List String :=
  ["-p", flattened call.messages call.format] ++
    (if call.model = "" then [] else ["--model", call.model]) ++ s.extraArgs

structure Finished where
  stdout : String
  stderr : String
  code : Nat
deriving DecidableEq

def answer (s : CommandService) : Option Finished → Answer
  | none => .error ("Failed to run " ++ s.executable)
  | some f => if f.code = 0 then .ok f.stdout else .error ("AI CLI failed: " ++ f.stderr)

end CommandService

end Mockup.Chat
