import Mockup.Chat.Command
import Mockup.Chat.Http
import Mockup.Config.Basic

/-! The client that a configuration asks for. -/

namespace Mockup.Config

open Chat

inductive Connection where
  | http (service : HttpService)
  | command (service : CommandService)

namespace Connection

def name : Connection → String
  | http _ => "http"
  | command s => s.executable

end Connection

def connect (c : Config) : Except String Connection :=
  match c.backend with
  | .cli => .ok (.command { executable := c.executable })
  | .http =>
    match c.apiKey with
    | none => .error ("No API key found (set " ++ c.apiKeyVariable ++ " or PROTOFORGE_API_KEY)")
    | some key =>
      (HttpService.create c.baseUrl key).map fun s =>
        .http { s with temperature := c.temperature, maxTokens := c.maxTokens }

end Mockup.Config
