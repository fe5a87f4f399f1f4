import Mockup.Chat.Client
import Mockup.Chat.Conversation
import Mockup.Chat.Reply
import Mockup.Config.Basic
import Mockup.Generation.Outcome
import Mockup.Log.Entry
import Mockup.Payload.Normal
import Mockup.Spec.Schema
import Mockup.Synthesis

/-! Runs of a generation. The candidates are asked in order until one answers with JSON; what it
answered is normalized and validated, and no other candidate is asked. When no candidate is left, or
the answer is not good, the specification is made from the project alone. -/

namespace Mockup.Generation

open Json Chat

variable {σ : Type}

structure Trial (σ : Type) where
  failed : List Attempt
  entries : List Log.Entry
  answer : Option (String × Value)
  state : σ

structure Asking (σ : Type) where
  result : Except AttemptResult Value
  entries : List Log.Entry
  state : σ

def failureText : AttemptResult → String
  | .backendError m => "backend error: " ++ m
  | .invalidJson m => "invalid JSON: " ++ m
  | r => r.name

def ask (client : Client σ) (messages : List Message) (candidate : String) (number : Nat)
    (s : σ) : Asking σ :=
  let started := Log.Entry.attemptStarted candidate number
  let failed (r : AttemptResult) := Log.Entry.attemptFailed candidate (failureText r)
  match client.complete ⟨candidate, messages, .json⟩ s with
  | (.error m, s) => ⟨.error (.backendError m), [started, failed (.backendError m)], s⟩
  | (.ok reply, s) =>
    let received := Log.Entry.responseReceived candidate reply
    match Reply.parse reply with
    | .ok payload => ⟨.ok payload, [started, received], s⟩
    | .error m => ⟨.error (.invalidJson m), [started, received, failed (.invalidJson m)], s⟩

def tryEach (client : Client σ) (messages : List Message) (number : Nat) :
    List String → σ → Trial σ
  | [], s => ⟨[], [], none, s⟩
  | c :: rest, s =>
    let asked := ask client messages c number s
    match asked.result with
    | .ok payload => ⟨[], asked.entries, some (c, payload), asked.state⟩
    | .error r =>
      let later := tryEach client messages (number + 1) rest asked.state
      { later with
        failed := ⟨c, r⟩ :: later.failed
        entries := asked.entries ++ later.entries }

def contextOf (p : Project) (focus notes : Option String) : Context where
  title := p.title
  summary := p.synopsis
  goal := p.statedGoals.head?
  focus := focus.getD ""
  notes := notes

def screenCount (s : Spec) : String := Text.natural s.keyScreens.length ++ "-screen prototype for "

def defaultMessage (s : Spec) : String := "Here is a " ++ screenCount s ++ s.title ++ "."

def apology (s : Spec) : String :=
  "I couldn't reach the design model, so I drafted a " ++ screenCount s ++ s.title ++
    " from your project goals. Ask me to refine any screen."

structure Ending where
  outcome : Outcome
  entries : List Log.Entry

def fallBack (p : Project) (focus : Option String) (reason : FallbackReason)
    (attempts : List Attempt) : Ending :=
  let spec := Synthesis.spec p focus p.phase
  { outcome := ⟨spec, apology spec, .fallback reason, attempts⟩
    entries := [.fallback reason.message, .generationEnd "fallback" spec.keyScreens.length] }

def Ending.after (e : Ending) (entries : List Log.Entry) : Ending :=
  { e with entries := entries ++ e.entries }

/-- Ends with the payload of a candidate, if it makes a valid specification. -/
def settle (p : Project) (focus : Option String) (failed : List Attempt) (candidate : String)
    (payload : Value) : Ending :=
  let message := Reply.message? payload
  let attempts (r : AttemptResult) := failed ++ [⟨candidate, r⟩]
  match Payload.normalize (contextOf p focus message) payload with
  | .error _ =>
    (fallBack p focus (.normalizationFailed candidate) (attempts .normalizationFailed)).after
      [.normalization candidate none]
  | .ok spec =>
    let normalized := Log.Entry.normalization candidate (some spec.keyScreens.length)
    match spec.validate with
    | .error e =>
      (fallBack p focus (.validationFailed candidate e.message)
        (attempts (.validationFailed e.message))).after
        [normalized, .validation candidate false (some e.message)]
    | .ok () =>
      { outcome :=
          ⟨spec, message.getD (defaultMessage spec), .model candidate, attempts .accepted⟩
        entries :=
          [normalized, .validation candidate true none,
            .generationEnd candidate spec.keyScreens.length] }

structure Run (σ : Type) extends Ending where
  state : σ

/-- Runs a generation with a client, or without one. -/
def run (config : Config) (client : Option (Client σ)) (p : Project) (history : List Message)
    (prompt : Option String) (s : σ) : Run σ :=
  let candidates := config.candidates
  let focus := focus? p prompt
  let start := Log.Entry.generationStart p.title candidates
  match client with
  | none => ⟨(fallBack p focus .noClient []).after [start], s⟩
  | some client =>
    let trial := tryEach client (conversation p history prompt) 1 candidates s
    let ending :=
      match trial.answer with
      | none => fallBack p focus .candidatesExhausted trial.failed
      | some (candidate, payload) => settle p focus trial.failed candidate payload
    ⟨ending.after (start :: trial.entries), trial.state⟩

end Mockup.Generation
