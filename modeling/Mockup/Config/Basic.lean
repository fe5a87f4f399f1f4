import Mockup.Json.Record
import Mockup.Json.Schema
import Mockup.Text.Blank

/-! The configuration of a generation: which models are asked, through which backend, and where the
bundles go. -/

namespace Mockup

open Json

inductive Backend where
  | http
  | cli
deriving DecidableEq, Repr

namespace Backend

def all : List Backend := [http, cli]

def name : Backend → String
  | http => "http"
  | cli => "cli"

end Backend

structure Config where
  backend : Backend := .http
  modelOverride : Option String := none
  defaultModels : List String := ["gpt-4o-mini", "gpt-4.1-mini", "gpt-4o"]
  baseUrl : String := "https://api.openai.com/v1"
  apiKey : Option String := none
  apiKeyVariable : String := "OPENAI_API_KEY"
  temperature : Option Number.Double := Number.Double.ofRatio? false 2 5
  maxTokens : Option Nat := none
  timeoutSeconds : Nat := 60
  executable : String := "gemini"
  outputDir : String := "prototypes"
  publicBaseUrl : String := "/prototypes"
  logDir : Option String := none

namespace Config

def ofDouble (x : Number.Double) : Value := .number (.real x)

def record : Record Config where
  name := "GenerationConfig"
  blank := {}
  fields := [
    .defaulted "backend" (.variant (Backend.all.map fun b => (b.name, b))) (fun b => .text b.name)
      Config.backend (fun v c => { c with backend := v }),
    .optional "model_override" .text .text Config.modelOverride
      (fun v c => { c with modelOverride := v }),
    .defaulted "default_models" .texts .texts Config.defaultModels
      (fun v c => { c with defaultModels := v }),
    .defaulted "base_url" .text .text Config.baseUrl (fun v c => { c with baseUrl := v }),
    .unwritten "api_key" Decoder.text.optional (fun v c => { c with apiKey := v }),
    .defaulted "api_key_env" .text .text Config.apiKeyVariable
      (fun v c => { c with apiKeyVariable := v }),
    .defaulted "temperature" Decoder.double.optional (fun t => (t.map ofDouble).getD .null)
      Config.temperature (fun v c => { c with temperature := v }),
    .optional "max_tokens" (.natural 32 "u32") .count Config.maxTokens
      (fun v c => { c with maxTokens := v }),
    .defaulted "timeout_secs" (.natural 64 "u64") .count Config.timeoutSeconds
      (fun v c => { c with timeoutSeconds := v }),
    .defaulted "cli_executable" .text .text Config.executable
      (fun v c => { c with executable := v }),
    .defaulted "output_dir" .text .text Config.outputDir (fun v c => { c with outputDir := v }),
    .defaulted "public_base_url" .text .text Config.publicBaseUrl
      (fun v c => { c with publicBaseUrl := v }),
    .optional "log_dir" .text .text Config.logDir (fun v c => { c with logDir := v })]

def schema : Schema :=
  .object
    [("api_key_env", .text 1),
     ("backend", .choice (Backend.all.map Backend.name)),
     ("base_url", .webAddress),
     ("cli_executable", .text 1),
     ("default_models", .list (.text 0) 0),
     ("log_dir", .text 0),
     ("max_tokens", .integer 1),
     ("model_override", .text 1),
     ("output_dir", .text 1),
     ("public_base_url", .text 0),
     ("temperature", .optionalNumber 0 2),
     ("timeout_secs", .integer 1)]
    ["backend", "default_models", "base_url", "timeout_secs", "output_dir"]

def violations (c : Config) : List Violation := schema.violations (record.toValue c)

def complaint (vs : List Violation) : String :=
  "Generation config validation failed: " ++ ", ".intercalate (vs.map Violation.message)

def validate (c : Config) : Except String Unit :=
  match c.violations with
  | [] => .ok ()
  | vs => .error (complaint vs)

/-- The models to ask, in order: the override and then the defaults, without blanks and doubles. -/
def candidates (c : Config) : List String :=
  ((c.modelOverride.toList ++ c.defaultModels).filterMap Text.filled?).eraseDups

end Config

end Mockup
