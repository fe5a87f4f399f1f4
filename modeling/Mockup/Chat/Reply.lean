import Mockup.Json.Reader.Value
import Mockup.Text.Blank

/-! What a model replied: a payload, bare or in a fenced block of a longer text. -/

namespace Mockup.Reply

open Json

def atFence? : List Char → Option (List Char × List Char)
  | [] => none
  | c :: cs =>
    match c, cs with
    | '\x60', '\x60' :: '\x60' :: rest => some ([], rest)
    | _, _ => (atFence? cs).map fun p => (c :: p.1, p.2)

/-- The text after the first line break; all of the text if there is none. -/
def afterLine (cs : List Char) : List Char :=
  match cs.dropWhile (· ≠ '\n') with
  | [] => cs
  | _ :: rest => rest

/-- The body of the first fenced block, or else the whole text; trimmed. -/
def clean (reply : String) : String :=
  let whole := String.ofList (Text.trim reply.toList)
  match atFence? reply.toList with
  | none => whole
  | some (_, after) =>
    match atFence? (afterLine after) with
    | none => whole
    | some (body, _) => String.ofList (Text.trim body)

def payload (reply : String) : Except Fault Value := Value.parse (clean reply)

def parse (reply : String) : Except String Value :=
  match payload reply with
  | .ok v => .ok v
  | .error f => .error (f.message (clean reply).toList)

def messageKeys : List String := ["assistant_message", "assistantMessage", "message", "reply"]

/-- The message to the user in a payload: the first text under one of the keys, unless that is
blank. -/
def message? (payload : Value) : Option String :=
  payload.object?.bind fun m =>
    (messageKeys.findSome? fun key => (m.get? key).bind Value.text?).bind Text.filled?

end Mockup.Reply
