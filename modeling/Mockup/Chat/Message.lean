import Mockup.Json.Record

/-! Messages of a conversation with a model. -/

namespace Mockup.Chat

open Json

inductive Role where
  | system
  | user
  | assistant
deriving DecidableEq, Repr

namespace Role

def all : List Role := [system, user, assistant]

def name : Role → String
  | system => "system"
  | user => "user"
  | assistant => "assistant"

def label : Role → String
  | system => "SYSTEM"
  | user => "USER"
  | assistant => "ASSISTANT"

end Role

structure Message where
  role : Role
  content : String
deriving DecidableEq, Repr

namespace Message

def record : Record Message where
  name := "ChatMessage"
  blank := ⟨.user, ""⟩
  fields := [
    .required "role" (.variant (Role.all.map fun r => (r.name, r))) (fun r => .text r.name)
      Message.role (fun v m => { m with role := v }),
    .required "content" .text .text Message.content (fun v m => { m with content := v })]

def history : Decoder (List Message) := .list record.decoder

end Message

inductive Format where
  | text
  | json
deriving DecidableEq, Repr

def Message.titled (m : Message) : String := "### " ++ m.role.label ++ "\n" ++ m.content

def flattened (messages : List Message) (format : Format) : String :=
  "\n\n".intercalate (messages.map Message.titled) ++
    match format with
    | .text => ""
    | .json => "\n\nRespond with a single JSON object and nothing else."

end Mockup.Chat
