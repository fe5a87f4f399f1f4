import Mockup.Generation.Run
import Mockup.Log.Journal

/-! A generation that logs as it goes. Each entry is handed to the logger when it is due, and what
comes of that is not looked at: the run takes the same way with any logger and without one, and what
it leaves is what writing all entries at the end leaves. -/

namespace Mockup

namespace Log

variable {ε τ : Type}

/-- What takes entries. It may fail, and it may change what it writes to either way. -/
structure Logger (ε τ : Type) where
  write : Entry → τ → Except ε Unit × τ

def quietly (logger : Option (Logger ε τ)) (e : Entry) (t : τ) : τ :=
  match logger with
  | none => t
  | some l =>
    match l.write e t with
    | (.ok (), t) => t
    | (.error _, t) => t

def quietlyAll (logger : Option (Logger ε τ)) (entries : List Entry) (t : τ) : τ :=
  entries.foldl (fun t e => quietly logger e t) t

def Journal.logger (j : Journal) (time : String) : Logger JournalError Files.Disk where
  write e d := j.log d { e with timestamp := time }

variable {logger : Option (Logger ε τ)} {t : τ}

theorem quietlyAll_cons (e : Entry) (rest : List Entry) :
    quietlyAll logger (e :: rest) t = quietlyAll logger rest (quietly logger e t) := rfl

theorem quietlyAll_append (es rest : List Entry) :
    quietlyAll logger (es ++ rest) t = quietlyAll logger rest (quietlyAll logger es t) :=
  List.foldl_append

theorem quietly_logger (j : Journal) (time : String) (e : Entry) (d : Files.Disk) :
    quietly (some (j.logger time)) e d = (j.log d { e with timestamp := time }).2 := by
  simp only [quietly, Journal.logger]
  rcases j.log d { e with timestamp := time } with ⟨_ | _, d'⟩ <;> rfl

theorem quietlyAll_logger (j : Journal) (time : String) (entries : List Entry) (d : Files.Disk) :
    quietlyAll (some (j.logger time)) entries d = j.logAll time d entries := by
  induction entries generalizing d with
  | nil => rfl
  | cons e rest ih => rw [quietlyAll_cons, ih, quietly_logger]; rfl

end Log

namespace Generation.Live

open Json Chat Log

variable {σ ε τ : Type} (logger : Option (Logger ε τ)) (client : Client σ)

def ask (messages : List Message) (candidate : String) (number : Nat) (s : σ) (t : τ) :
    Except AttemptResult Value × σ × τ :=
  let t := quietly logger (.attemptStarted candidate number) t
  let failed (r : AttemptResult) (s : σ) (t : τ) :=
    (.error r, s, quietly logger (.attemptFailed candidate (failureText r)) t)
  match client.complete ⟨candidate, messages, .json⟩ s with
  | (.error m, s) => failed (.backendError m) s t
  | (.ok reply, s) =>
    let t := quietly logger (.responseReceived candidate reply) t
    match Reply.parse reply with
    | .ok payload => (.ok payload, s, t)
    | .error m => failed (.invalidJson m) s t

def tryEach (messages : List Message) (number : Nat) :
    List String → σ → τ → List Attempt × Option (String × Value) × σ × τ
  | [], s, t => ([], none, s, t)
  | c :: rest, s, t =>
    match ask logger client messages c number s t with
    | (.ok payload, s, t) => ([], some (c, payload), s, t)
    | (.error r, s, t) =>
      let (failed, later) := tryEach messages (number + 1) rest s t
      (⟨c, r⟩ :: failed, later)

def fallBack (p : Project) (focus : Option String) (reason : FallbackReason)
    (attempts : List Attempt) (t : τ) : Outcome × τ :=
  let spec := Synthesis.spec p focus p.phase
  let t := quietly logger (.fallback reason.message) t
  let t := quietly logger (.generationEnd "fallback" spec.keyScreens.length) t
  (⟨spec, apology spec, .fallback reason, attempts⟩, t)

def settle (p : Project) (focus : Option String) (failed : List Attempt) (candidate : String)
    (payload : Value) (t : τ) : Outcome × τ :=
  let message := Reply.message? payload
  let attempts (r : AttemptResult) := failed ++ [⟨candidate, r⟩]
  match Payload.normalize (contextOf p focus message) payload with
  | .error _ =>
    let t := quietly logger (.normalization candidate none) t
    fallBack logger p focus (.normalizationFailed candidate) (attempts .normalizationFailed) t
  | .ok spec =>
    let t := quietly logger (.normalization candidate (some spec.keyScreens.length)) t
    match spec.validate with
    | .error e =>
      let t := quietly logger (.validation candidate false (some e.message)) t
      fallBack logger p focus (.validationFailed candidate e.message)
        (attempts (.validationFailed e.message)) t
    | .ok () =>
      let t := quietly logger (.validation candidate true none) t
      let t := quietly logger (.generationEnd candidate spec.keyScreens.length) t
      (⟨spec, message.getD (defaultMessage spec), .model candidate, attempts .accepted⟩, t)

def run (config : Config) (client : Option (Client σ)) (p : Project) (history : List Message)
    (prompt : Option String) (s : σ) (t : τ) : Outcome × σ × τ :=
  let focus := focus? p prompt
  let t := quietly logger (.generationStart p.title config.candidates) t
  match client with
  | none =>
    let (outcome, t) := fallBack logger p focus .noClient [] t
    (outcome, s, t)
  | some client =>
    match tryEach logger client (conversation p history prompt) 1 config.candidates s t with
    | (failed, none, s, t) =>
      let (outcome, t) := fallBack logger p focus .candidatesExhausted failed t
      (outcome, s, t)
    | (failed, some (candidate, payload), s, t) =>
      let (outcome, t) := settle logger p focus failed candidate payload t
      (outcome, s, t)

theorem ask_eq (messages : List Message) (candidate : String) (number : Nat) (s : σ) (t : τ) :
    ask logger client messages candidate number s t =
      let asked := Generation.ask client messages candidate number s
      (asked.result, asked.state, quietlyAll logger asked.entries t) := by
  simp only [ask, Generation.ask]
  rcases client.complete ⟨candidate, messages, .json⟩ s with ⟨_ | reply, s'⟩
  · rfl
  · dsimp only
    cases Reply.parse reply <;> rfl

theorem tryEach_eq (messages : List Message) (number : Nat) (candidates : List String) (s : σ)
    (t : τ) :
    tryEach logger client messages number candidates s t =
      let trial := Generation.tryEach client messages number candidates s
      (trial.failed, trial.answer, trial.state, quietlyAll logger trial.entries t) := by
  induction candidates generalizing number s t with
  | nil => rfl
  | cons c rest ih =>
    simp only [tryEach, Generation.tryEach, ask_eq]
    cases (Generation.ask client messages c number s).result with
    | ok payload => rfl
    | error r => simp only [ih, quietlyAll_append]

theorem fallBack_eq (p : Project) (focus : Option String) (reason : FallbackReason)
    (attempts : List Attempt) (t : τ) :
    fallBack logger p focus reason attempts t =
      let ending := Generation.fallBack p focus reason attempts
      (ending.outcome, quietlyAll logger ending.entries t) := rfl

theorem settle_eq (p : Project) (focus : Option String) (failed : List Attempt)
    (candidate : String) (payload : Value) (t : τ) :
    settle logger p focus failed candidate payload t =
      let ending := Generation.settle p focus failed candidate payload
      (ending.outcome, quietlyAll logger ending.entries t) := by
  simp only [settle, Generation.settle]
  cases Payload.normalize (contextOf p focus (Reply.message? payload)) payload with
  | error e => rfl
  | ok spec =>
    dsimp only
    cases spec.validate <;> rfl

/-- Writing as it goes is writing all at the end, and changes nothing of the run. -/
theorem run_eq (config : Config) (client : Option (Client σ)) (p : Project)
    (history : List Message) (prompt : Option String) (s : σ) (t : τ) :
    run logger config client p history prompt s t =
      let r := Generation.run config client p history prompt s
      (r.outcome, r.state, quietlyAll logger r.entries t) := by
  cases client with
  | none => rfl
  | some client =>
    simp only [run, Generation.run, tryEach_eq]
    generalize Generation.tryEach client (conversation p history prompt) 1 config.candidates s = trial
    cases trial.answer with
    | none =>
      simp only [fallBack_eq, Ending.after, List.cons_append, quietlyAll_cons, quietlyAll_append]
    | some answer =>
      simp only [settle_eq, Ending.after, List.cons_append, quietlyAll_cons, quietlyAll_append]

end Generation.Live

end Mockup
