import Mockup.Chat.Message
import Mockup.Project

/-! The conversation that asks a model for a mock-up: instructions, what is known of the project,
the history, and the request. -/

namespace Mockup.Chat

def instructionLines : List String :=
  [
   "You are a product prototyping assistant. You design small, clickable web prototypes.",
   "",
   "Reply with ONE JSON object of the form:",
   "\x7b",
   "  \"assistant_message\": string (a short note to the user; bullet points allowed),",
   "  \"prototype_spec\": \x7b",
   "    \"title\": string,",
   "    \"summary\": string,",
   "    \"goal\": string,",
   "    \"success_metrics\": string[],",
   "    \"key_screens\": [",
   "      \x7b",
   "        \"name\": string,",
   "        \"goal\": string,",
   "        \"primary_actions\": string[],",
   "        \"layout_notes\": string,",
   "        \"components\": [",
   "          \x7b",
   "            \"kind\": \"hero\" | \"form\" | \"list\" | \"cta\" | \"stats\" | \"custom\" | \"navigation\" | \"modal\" | \"note\",",
   "            \"title\": string,",
   "            \"description\": string,",
   "            \"fields\": string[] (form only),",
   "            \"actions\": string[],",
   "            \"sample_items\": string[] (list and stats only)",
   "          \x7d",
   "        ]",
   "      \x7d",
   "    ],",
   "    \"user_flow\": string[],",
   "    \"visual_style\": string,",
   "    \"call_to_action\": string",
   "  \x7d",
   "\x7d",
   "",
   "Use between two and five key screens. Do not wrap the JSON in prose."]

def instructions : String := "\n".intercalate instructionLines

def defaultRequest : String := "Draft the first clickable prototype for this project."

def briefLine (label : String) (x : Option String) : List String :=
  (x.map fun t => label ++ ": " ++ t).toList

def briefGoals : List String → List String
  | [] => []
  | goals => "Goals:" :: goals.map ("- " ++ ·)

/-- What is known of the project. A blank summary is left out; the metric, the phase and the focus
stand as they were given. -/
def brief (p : Project) : String :=
  "\n".intercalate
    (("Project: " ++ p.title) ::
        briefLine "Summary" (p.summary.filter fun s => !Text.isBlankText s) ++
      briefGoals p.statedGoals ++ briefLine "North star metric" p.northStar ++
      briefLine "Phase" p.phase ++ briefLine "Focus" p.focus)

def request (prompt : Option String) : String := (prompt.bind Text.filled?).getD defaultRequest

def conversation (p : Project) (history : List Message) (prompt : Option String) : List Message :=
  ⟨.system, instructions⟩ :: ⟨.user, brief p⟩ :: history ++ [⟨.user, request prompt⟩]

/-- What the mock-up is to concentrate on. The focus of the project goes before the prompt even when
it is blank. -/
def focus? (p : Project) (prompt : Option String) : Option String :=
  (p.focus.or prompt).bind Text.filled?

end Mockup.Chat
