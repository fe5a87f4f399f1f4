import Mockup.Json.Record

/-! Events in the log of generations. -/

namespace Mockup.Log

open Json

inductive EventKind where
  | generationStart
  | attemptStarted
  | attemptFailed
  | responseReceived
  | normalizationResult
  | validationResult
  | fallbackUsed
  | generationEnd
  | bundlePublished
  | error
deriving DecidableEq, Repr

namespace EventKind

def all : List EventKind :=
  [generationStart, attemptStarted, attemptFailed, responseReceived, normalizationResult,
    validationResult, fallbackUsed, generationEnd, bundlePublished, error]

def name : EventKind → String
  | generationStart => "generation_start"
  | attemptStarted => "attempt_started"
  | attemptFailed => "attempt_failed"
  | responseReceived => "response_received"
  | normalizationResult => "normalization_result"
  | validationResult => "validation_result"
  | fallbackUsed => "fallback_used"
  | generationEnd => "generation_end"
  | bundlePublished => "bundle_published"
  | error => "error"

end EventKind

inductive Level where
  | debug
  | info
  | warn
  | error
deriving DecidableEq, Repr

namespace Level

def all : List Level := [debug, info, warn, error]

def name : Level → String
  | debug => "debug"
  | info => "info"
  | warn => "warn"
  | error => "error"

end Level

structure Entry where
  kind : EventKind
  level : Level
  message : String
  details : Option Value := none

structure Event extends Entry where
  timestamp : String

namespace Event

def record : Record Event where
  name := "LogEvent"
  blank := { kind := .error, level := .error, message := "", timestamp := "" }
  fields := [
    .required "timestamp" .text .text Event.timestamp (fun v e => { e with timestamp := v }),
    .required "event_type" (.variant (EventKind.all.map fun k => (k.name, k)))
      (fun k => .text k.name) (fun e => e.kind) (fun v e => { e with kind := v }),
    .required "level" (.variant (Level.all.map fun l => (l.name, l))) (fun l => .text l.name)
      (fun e => e.level) (fun v e => { e with level := v }),
    .required "message" .text .text (fun e => e.message) (fun v e => { e with message := v }),
    .named "details" .value (fun v => v) (fun e => e.details) (fun v e => { e with details := v })]

def compact (e : Event) : String := (record.ordered e).compact

def line (e : Event) : String := e.compact ++ "\n"

end Event

end Mockup.Log
