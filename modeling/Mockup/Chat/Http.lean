import Mockup.Chat.Message
import Mockup.Text.Blank
import Mockup.Text.Decimal

/-! Chat completions over HTTP: what is posted, and how the response is read. -/

namespace Mockup.Chat

open Json

structure HttpService where
  baseUrl : String
  apiKey : String
  temperature : Option Number.Double := none
  maxTokens : Option Nat := none

namespace HttpService

def create (baseUrl apiKey : String) : Except String HttpService :=
  if Text.isBlankText apiKey then .error "API key is empty"
  else .ok { baseUrl := String.ofList (Text.dropEnd (· = '/') baseUrl.toList), apiKey }

def endpoint (s : HttpService) : String := s.baseUrl ++ "/chat/completions"

def body (s : HttpService) (model : String) (messages : List Message) (format : Format) : Value :=
  .object
    ([("model", .text model), ("messages", .list (messages.map Message.record.ordered))] ++
      (s.temperature.map fun t => ("temperature", Value.number (.real t))).toList ++
      (s.maxTokens.map fun n => ("max_tokens", Value.count n)).toList ++
      match format with
      | .json => [("response_format", .object [("type", .text "json_object")])]
      | .text => [])

def authorization (s : HttpService) : String := Text.trimmedEnd ("Bearer " ++ s.apiKey)

def isHeaderChar (c : Char) : Bool := c = '\t' || (' ' ≤ c && c ≠ '\x7f')

/-- Whether a request can be made. Nothing is sent with a key that no header can have. -/
def isSendable (s : HttpService) : Bool := s.apiKey.toList.all isHeaderChar

end HttpService

structure HttpResponse where
  status : Nat
  body : String

namespace HttpResponse

def phrases : List (Nat × String) :=
  [(100, "Continue"), (101, "Switching Protocols"), (102, "Processing"), (103, "Early Hints"),
   (200, "OK"), (201, "Created"), (202, "Accepted"), (203, "Non Authoritative Information"),
   (204, "No Content"), (205, "Reset Content"), (206, "Partial Content"), (207, "Multi-Status"),
   (208, "Already Reported"), (226, "IM Used"),
   (300, "Multiple Choices"), (301, "Moved Permanently"), (302, "Found"), (303, "See Other"),
   (304, "Not Modified"), (305, "Use Proxy"), (307, "Temporary Redirect"),
   (308, "Permanent Redirect"),
   (400, "Bad Request"), (401, "Unauthorized"), (402, "Payment Required"), (403, "Forbidden"),
   (404, "Not Found"), (405, "Method Not Allowed"), (406, "Not Acceptable"),
   (407, "Proxy Authentication Required"), (408, "Request Timeout"), (409, "Conflict"),
   (410, "Gone"), (411, "Length Required"), (412, "Precondition Failed"),
   (413, "Payload Too Large"), (414, "URI Too Long"), (415, "Unsupported Media Type"),
   (416, "Range Not Satisfiable"), (417, "Expectation Failed"), (418, "I'm a teapot"),
   (421, "Misdirected Request"), (422, "Unprocessable Entity"), (423, "Locked"),
   (424, "Failed Dependency"), (425, "Too Early"), (426, "Upgrade Required"),
   (428, "Precondition Required"), (429, "Too Many Requests"),
   (431, "Request Header Fields Too Large"), (451, "Unavailable For Legal Reasons"),
   (500, "Internal Server Error"), (501, "Not Implemented"), (502, "Bad Gateway"),
   (503, "Service Unavailable"), (504, "Gateway Timeout"), (505, "HTTP Version Not Supported"),
   (506, "Variant Also Negotiates"), (507, "Insufficient Storage"), (508, "Loop Detected"),
   (510, "Not Extended"), (511, "Network Authentication Required")]

def phrase (status : Nat) : String := (phrases.lookup status).getD "<unknown status code>"

def isSuccess (r : HttpResponse) : Bool := 200 ≤ r.status && r.status < 300

def content (r : HttpResponse) : String :=
  if r.status = 204 || r.status = 304 then "" else r.body

def contentOfMessage : Record (Option String) where
  name := "ChoiceMessage"
  blank := none
  fields := [.optional "content" .text .text (fun c => c) (fun v _ => v)]

def contentOfChoice : Record (Option String) where
  name := "ChatChoice"
  blank := none
  fields := [.required "message" contentOfMessage.decoder contentOfMessage.ordered (fun c => c)
    (fun v _ => v)]

def choices : Record (List (Option String)) where
  name := "ChatResponse"
  blank := []
  fields := [.required "choices" (.list contentOfChoice.decoder)
    (fun cs => .list (cs.map contentOfChoice.ordered)) (fun cs => cs) (fun v _ => v)]

def unreachable : String := "HTTP request failed"

/-- The answer in a response: the content of its first choice. -/
def answer (r : HttpResponse) : Except String String :=
  if r.isSuccess then
    match choices.decoder.decode r.content with
    | .error _ => .error "Failed to decode chat completion response"
    | .ok (some text :: _) => .ok text
    | .ok _ => .error "Chat completion contained no message content"
  else
    .error
      ("Backend returned " ++ Text.natural r.status ++ " " ++ phrase r.status ++ ": " ++ r.content)

end HttpResponse

end Mockup.Chat
