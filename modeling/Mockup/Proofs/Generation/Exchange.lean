import Mockup.Generation.Run

/-! What goes on between a generation and a client. A recorded client answers like the client and
keeps every exchange; trying candidates comes down to the exchanges it leaves behind. -/

namespace Mockup

namespace Chat

structure Exchange where
  call : Call
  answer : Answer

/-- The client with a record of all exchanges, the latest last. -/
def Client.recorded {σ : Type} (client : Client σ) : Client (σ × List Exchange) where
  complete call s :=
    let (answer, t) := client.complete call s.1
    (answer, t, s.2 ++ [⟨call, answer⟩])

theorem Client.complete_recorded {σ : Type} (client : Client σ) (call : Call) (s : σ)
    (xs : List Exchange) :
    client.recorded.complete call (s, xs) =
      let answered := client.complete call s
      (answered.1, answered.2, xs ++ [⟨call, answered.1⟩]) := rfl

end Chat

namespace Generation

open Json Chat

variable {σ : Type} {client : Client σ} {messages : List Message}

def resultOf (x : Exchange) : Except AttemptResult Value :=
  match x.answer with
  | .error m => .error (.backendError m)
  | .ok reply =>
    match Reply.parse reply with
    | .ok payload => .ok payload
    | .error m => .error (.invalidJson m)

def Failed (x : Exchange) (a : Attempt) : Prop :=
  a.candidate = x.call.model ∧ resultOf x = .error a.result

theorem Failed.result {x : Exchange} {a : Attempt} (h : Failed x a) :
    (∃ m, a.result = .backendError m) ∨ ∃ m, a.result = .invalidJson m := by
  have hresult := h.2
  rw [resultOf] at hresult
  split at hresult
  · next m _ => exact .inl ⟨m, (Except.error.inj hresult).symm⟩
  · split at hresult
    · cases hresult
    · next m _ => exact .inr ⟨m, (Except.error.inj hresult).symm⟩

def callOf (messages : List Message) (candidate : String) : Call := ⟨candidate, messages, .json⟩

def exchangeWith (client : Client σ) (messages : List Message) (candidate : String) (s : σ) :
    Exchange := ⟨callOf messages candidate, (client.complete (callOf messages candidate) s).1⟩

theorem ask_result (client : Client σ) (messages : List Message) (candidate : String)
    (number : Nat) (s : σ) :
    (ask client messages candidate number s).result =
      resultOf (exchangeWith client messages candidate s) := by
  simp only [ask, exchangeWith, callOf, resultOf]
  rcases client.complete ⟨candidate, messages, .json⟩ s with ⟨_ | reply, t⟩
  · rfl
  · dsimp only
    cases Reply.parse reply <;> rfl

theorem ask_recorded (candidate : String) (number : Nat) (s : σ) (xs : List Exchange) :
    ask client.recorded messages candidate number (s, xs) =
      let asked := ask client messages candidate number s
      ⟨asked.result, asked.entries,
        (asked.state, xs ++ [exchangeWith client messages candidate s])⟩ := by
  simp only [ask, exchangeWith, callOf, Client.complete_recorded]
  rcases h : client.complete ⟨candidate, messages, .json⟩ s with ⟨_ | reply, t⟩
  · simp only
  · simp only
    cases Reply.parse reply <;> rfl

inductive Went (messages : List Message) :
    List String → List Exchange → List Attempt → Option (String × Value) → Prop where
  | exhausted : Went messages [] [] [] none
  | answered {c : String} {rest : List String} {x : Exchange} {payload : Value} :
      x.call = callOf messages c → resultOf x = .ok payload →
      Went messages (c :: rest) [x] [] (some (c, payload))
  | failed {c : String} {rest : List String} {x : Exchange} {xs : List Exchange} {a : Attempt}
      {as : List Attempt} {answer : Option (String × Value)} :
      x.call = callOf messages c → Failed x a → Went messages rest xs as answer →
      Went messages (c :: rest) (x :: xs) (a :: as) answer

/-- Recording changes nothing but the record, which tells how the trial went. -/
theorem tryEach_recorded (client : Client σ) (messages : List Message) (number : Nat)
    (candidates : List String) (s : σ) (xs : List Exchange) :
    let trial := tryEach client messages number candidates s
    ∃ ys, tryEach client.recorded messages number candidates (s, xs) =
        ⟨trial.failed, trial.entries, trial.answer, (trial.state, xs ++ ys)⟩ ∧
      Went messages candidates ys trial.failed trial.answer := by
  -- the record before the trial is any, as each exchange adds to it
  induction candidates generalizing number s xs with
  | nil => exact ⟨[], by rw [List.append_nil]; rfl, .exhausted⟩
  | cons c rest ih =>
    have hresult := ask_result client messages c number s
    simp only [tryEach, ask_recorded]
    cases hr : (ask client messages c number s).result with
    | ok payload =>
      exact ⟨[exchangeWith client messages c s], rfl, .answered rfl (hresult.symm.trans hr)⟩
    | error r =>
      obtain ⟨ys, hys, hwent⟩ := ih (number + 1) (ask client messages c number s).state
        (xs ++ [exchangeWith client messages c s])
      refine ⟨exchangeWith client messages c s :: ys, ?_, .failed rfl ⟨rfl, ?_⟩ hwent⟩
      · simp [hys]
      · exact hresult.symm.trans hr

end Generation

end Mockup
