import Mockup.Json.Value
import Mockup.Spec.Basic

/-! What a generation comes to: the specification, where it is from, and what was tried. -/

namespace Mockup.Generation

open Json

inductive FallbackReason where
  | noClient
  | candidatesExhausted
  | normalizationFailed (candidate : String)
  | validationFailed (candidate error : String)
deriving DecidableEq, Repr

namespace FallbackReason

def name : FallbackReason → String
  | noClient => "no_client"
  | candidatesExhausted => "candidates_exhausted"
  | normalizationFailed _ => "normalization_failed"
  | validationFailed _ _ => "validation_failed"

def message : FallbackReason → String
  | noClient => "no generation backend available"
  | candidatesExhausted => "every candidate model failed"
  | normalizationFailed candidate => "response from " ++ candidate ++ " could not be normalized"
  | validationFailed candidate error =>
    "response from " ++ candidate ++ " failed validation: " ++ error

def members : FallbackReason → List (String × Value)
  | normalizationFailed candidate => [("candidate", .text candidate)]
  | validationFailed candidate error => [("candidate", .text candidate), ("error", .text error)]
  | _ => []

def toValue (r : FallbackReason) : Value := .object (("reason", .text r.name) :: r.members)

end FallbackReason

inductive Source where
  | model (candidate : String)
  | fallback (reason : FallbackReason)
deriving DecidableEq, Repr

namespace Source

def toValue : Source → Value
  | model candidate => .object [("kind", .text "model"), ("candidate", .text candidate)]
  | fallback reason => .object [("kind", .text "fallback"), ("reason", reason.toValue)]

def reason? : Source → Option FallbackReason
  | model _ => none
  | fallback reason => some reason

end Source

inductive AttemptResult where
  | backendError (message : String)
  | invalidJson (message : String)
  | accepted
  | normalizationFailed
  | validationFailed (message : String)
deriving DecidableEq, Repr

namespace AttemptResult

def name : AttemptResult → String
  | backendError _ => "backend_error"
  | invalidJson _ => "invalid_json"
  | accepted => "accepted"
  | normalizationFailed => "normalization_failed"
  | validationFailed _ => "validation_failed"

def detail? : AttemptResult → Option String
  | backendError m => some m
  | invalidJson m => some m
  | validationFailed m => some m
  | _ => none

def toValue (r : AttemptResult) : Value :=
  .object (("outcome", .text r.name) :: (r.detail?.map fun m => ("detail", Value.text m)).toList)

end AttemptResult

structure Attempt where
  candidate : String
  result : AttemptResult
deriving DecidableEq, Repr

def Attempt.toValue (a : Attempt) : Value :=
  .object [("candidate", .text a.candidate), ("outcome", a.result.toValue)]

structure Outcome where
  spec : Spec
  message : String
  source : Source
  attempts : List Attempt

def Outcome.usedFallback (o : Outcome) : Bool := o.source.reason?.isSome

end Mockup.Generation
