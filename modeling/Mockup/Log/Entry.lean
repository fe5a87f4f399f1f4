import Mockup.Log.Event
import Mockup.Text.Decimal

/-! The entries that a generation writes to its log. -/

namespace Mockup.Log.Entry

open Json

def described (members : List (String × Value)) : Option Value := some (.mapping members)

def generationStart (project : String) (candidates : List String) : Entry where
  kind := .generationStart
  level := .info
  message := "Generating prototype for " ++ project
  details := described [("project", .text project), ("candidates", .texts candidates)]

def attemptStarted (candidate : String) (attempt : Nat) : Entry where
  kind := .attemptStarted
  level := .info
  message := "Attempt " ++ Text.natural attempt ++ " with " ++ candidate
  details := described [("candidate", .text candidate), ("attempt", .count attempt)]

def attemptFailed (candidate reason : String) : Entry where
  kind := .attemptFailed
  level := .warn
  message := "Candidate " ++ candidate ++ " failed"
  details := described [("candidate", .text candidate), ("reason", .text reason)]

def responseReceived (candidate response : String) : Entry where
  kind := .responseReceived
  level := .debug
  message := "Response from " ++ candidate
  details :=
    described [("candidate", .text candidate), ("response", .text response),
      ("response_length", .count response.utf8ByteSize)]

def normalization (candidate : String) (screens : Option Nat) : Entry where
  kind := .normalizationResult
  level := if screens.isSome then .info else .warn
  message :=
    match screens with
    | some n => "Normalized " ++ Text.natural n ++ " screen(s)"
    | none => "Normalization produced nothing"
  details :=
    described [("candidate", .text candidate), ("screens", (screens.map Value.count).getD .null)]

def validation (candidate : String) (passed : Bool) (error : Option String) : Entry where
  kind := .validationResult
  level := if passed then .info else .warn
  message := (if passed then "Validation passed for " else "Validation failed for ") ++ candidate
  details :=
    described [("candidate", .text candidate), ("passed", .bool passed), ("error", .optional error)]

def fallback (reason : String) : Entry where
  kind := .fallbackUsed
  level := .warn
  message := "Using deterministic fallback"
  details := described [("reason", .text reason)]

def generationEnd (source : String) (screens : Nat) : Entry where
  kind := .generationEnd
  level := .info
  message := "Generation finished via " ++ source
  details := described [("source", .text source), ("screens", .count screens)]

def bundlePublished (slug url : String) (reused : Bool) : Entry where
  kind := .bundlePublished
  level := .info
  message := "Published " ++ slug ++ " to " ++ url
  details := described [("slug", .text slug), ("url", .text url), ("reused", .bool reused)]

def error (message : String) (cause : Option String) : Entry where
  kind := .error
  level := .error
  message
  details := cause.bind fun c => described [("error", .text c)]

end Mockup.Log.Entry
