import Mockup.Chat.Message

/-! Clients: what answers a conversation. The state of a client may change with every call. -/

namespace Mockup.Chat

structure Call where
  model : String
  messages : List Message
  format : Format
deriving DecidableEq

abbrev Answer := Except String String

structure Client (σ : Type) where
  complete : Call → σ → Answer × σ

/-- A client with answers prepared, which remembers its calls. -/
structure Canned where
  answers : List Answer
  calls : List Call := []

namespace Canned

def complete (call : Call) (s : Canned) : Answer × Canned :=
  match s.answers with
  | [] => (.error "no reply left", { s with calls := call :: s.calls })
  | a :: rest => (a, ⟨rest, call :: s.calls⟩)

def client : Client Canned := ⟨complete⟩

end Canned

end Mockup.Chat
