import Mathlib.Data.List.Forall2
import Mockup.Proofs.Generation.Exchange
import Mockup.Proofs.Payload.Readable

/-! The account of a run: which candidates were asked and what was recorded of each, and where the
specification is from. The exchanges of the run decide all of it. -/

namespace Mockup.Generation

open Json Chat

variable {σ : Type} {messages : List Message} {candidates : List String} {xs : List Exchange}
  {as : List Attempt} {answer : Option (String × Value)}

theorem Went.calls (h : Went messages candidates xs as answer) :
    xs.map Exchange.call = (candidates.take xs.length).map (callOf messages) := by
  induction h with
  | exhausted => rfl
  | answered hcall _ => simp [hcall]
  | failed hcall _ _ ih => simp [hcall, ih]

theorem Went.of_no_answer (h : Went messages candidates xs as none) :
    xs.length = candidates.length ∧ List.Forall₂ Failed xs as := by
  generalize hanswer : (none : Option (String × Value)) = answer at h
  induction h with
  | exhausted => exact ⟨rfl, .nil⟩
  | answered => cases hanswer
  | failed _ hfailed _ ih =>
    obtain ⟨hlength, hall⟩ := ih hanswer
    exact ⟨by simp [hlength], .cons hfailed hall⟩

theorem Went.of_answer {c : String} {payload : Value}
    (h : Went messages candidates xs as (some (c, payload))) :
    ∃ init x, xs = init ++ [x] ∧ List.Forall₂ Failed init as ∧ x.call.model = c ∧
      resultOf x = .ok payload := by
  generalize hanswer : some (c, payload) = answer at h
  induction h with
  | exhausted => cases hanswer
  | @answered c' rest x payload' hcall hresult =>
    cases hanswer
    exact ⟨[], x, rfl, .nil, by rw [hcall]; rfl, hresult⟩
  | @failed c' rest y ys a as answer hcall hfailed _ ih =>
    obtain ⟨init, x, rfl, hall, hmodel, hresult⟩ := ih hanswer
    exact ⟨y :: init, x, rfl, .cons hfailed hall, hmodel, hresult⟩

theorem candidates_of_failed (h : List.Forall₂ Failed xs as) :
    as.map Attempt.candidate = xs.map fun x => x.call.model := by
  induction h with
  | nil => rfl
  | cons hfailed _ ih => rw [List.map_cons, List.map_cons, hfailed.1, ih]

theorem result_of_mem_failed (h : List.Forall₂ Failed xs as) {a : Attempt} (ha : a ∈ as) :
    (∃ m, a.result = .backendError m) ∨ ∃ m, a.result = .invalidJson m := by
  induction h with
  | nil => cases ha
  | cons hfailed _ ih =>
    rcases List.mem_cons.mp ha with rfl | ha
    · exact hfailed.result
    · exact ih ha

/-- The outcome was made from the project alone. -/
structure Drafted (p : Project) (focus : Option String) (reason : FallbackReason) (o : Outcome) :
    Prop where
  source : o.source = .fallback reason
  spec : o.spec = Synthesis.spec p focus p.phase
  message : o.message = apology o.spec

/-- How a run with a client ended, told by its last exchange. -/
inductive Conclusion (p : Project) (focus : Option String) (candidates : List String)
    (xs : List Exchange) (o : Outcome) : Prop where
  | accepted {x : Exchange} {payload : Value} :
      xs.getLast? = some x → resultOf x = .ok payload → Payload.Readable payload →
      o.attempts.getLast? = some ⟨x.call.model, .accepted⟩ → o.source = .model x.call.model →
      Payload.normalize (contextOf p focus (Reply.message? payload)) payload = .ok o.spec →
      o.message = (Reply.message? payload).getD (defaultMessage o.spec) →
      Conclusion p focus candidates xs o
  | refused {x : Exchange} {payload : Value} :
      xs.getLast? = some x → resultOf x = .ok payload → ¬ Payload.Readable payload →
      o.attempts.getLast? = some ⟨x.call.model, .normalizationFailed⟩ →
      Drafted p focus (.normalizationFailed x.call.model) o → Conclusion p focus candidates xs o
  | exhausted :
      xs.length = candidates.length → List.Forall₂ Failed xs o.attempts →
      Drafted p focus .candidatesExhausted o → Conclusion p focus candidates xs o

/-- What the exchanges of a run say of its outcome. -/
structure Account (candidates : List String) (p : Project) (history : List Message)
    (prompt : Option String) (xs : List Exchange) (o : Outcome) : Prop where
  calls : xs.map Exchange.call =
    (candidates.take xs.length).map (callOf (conversation p history prompt))
  attempts : o.attempts.map Attempt.candidate = xs.map fun x => x.call.model
  failures : List.Forall₂ Failed xs.dropLast o.attempts.dropLast
  conclusion : Conclusion p (focus? p prompt) candidates xs o

theorem drafted_fallBack (p : Project) (focus : Option String) (reason : FallbackReason)
    (attempts : List Attempt) : Drafted p focus reason (fallBack p focus reason attempts).outcome :=
  ⟨rfl, rfl, rfl⟩

theorem settle_of_readable (p : Project) (focus : Option String) (failed : List Attempt)
    (candidate : String) {payload : Value} (h : Payload.Readable payload) :
    ∃ spec, Payload.normalize (contextOf p focus (Reply.message? payload)) payload = .ok spec ∧
      (settle p focus failed candidate payload).outcome =
        ⟨spec, (Reply.message? payload).getD (defaultMessage spec), .model candidate,
          failed ++ [⟨candidate, .accepted⟩]⟩ := by
  obtain ⟨spec, hspec⟩ := Payload.exists_normalize_ok_iff.mpr h
  refine ⟨spec, hspec, ?_⟩
  have hvalid := (Payload.clean_of_normalize hspec).valid
  simp only [settle, hspec, hvalid]

theorem settle_of_not_readable (p : Project) (focus : Option String) (failed : List Attempt)
    (candidate : String) {payload : Value} (h : ¬ Payload.Readable payload) :
    (settle p focus failed candidate payload).outcome =
      (fallBack p focus (.normalizationFailed candidate)
        (failed ++ [⟨candidate, .normalizationFailed⟩])).outcome := by
  rw [settle]
  cases hnormal : Payload.normalize (contextOf p focus (Reply.message? payload)) payload with
  | error e => rfl
  | ok spec => exact absurd (Payload.exists_normalize_ok_iff.mp ⟨spec, hnormal⟩) h

def outcomeOf (p : Project) (focus : Option String) (failed : List Attempt)
    (answer : Option (String × Value)) : Outcome :=
  match answer with
  | none => (fallBack p focus .candidatesExhausted failed).outcome
  | some (candidate, payload) => (settle p focus failed candidate payload).outcome

theorem conclusion_outcomeOf (p : Project) (focus : Option String)
    (h : Went messages candidates xs as answer) :
    Conclusion p focus candidates xs (outcomeOf p focus as answer) := by
  cases answer with
  | none =>
    obtain ⟨hlength, hall⟩ := h.of_no_answer
    exact .exhausted hlength hall (drafted_fallBack p focus _ as)
  | some cp =>
    obtain ⟨candidate, payload⟩ := cp
    obtain ⟨init, x, rfl, hall, rfl, hresult⟩ := h.of_answer
    have hlast : (init ++ [x]).getLast? = some x := List.getLast?_concat
    by_cases hreadable : Payload.Readable payload
    · obtain ⟨spec, hspec, hsettle⟩ :=
        settle_of_readable p focus as x.call.model hreadable
      rw [outcomeOf, hsettle]
      exact .accepted hlast hresult hreadable List.getLast?_concat rfl hspec rfl
    · rw [outcomeOf, settle_of_not_readable p focus as x.call.model hreadable]
      exact .refused hlast hresult hreadable List.getLast?_concat (drafted_fallBack p focus _ _)

theorem attempts_outcomeOf (p : Project) (focus : Option String)
    (h : Went messages candidates xs as answer) :
    (outcomeOf p focus as answer).attempts.map Attempt.candidate = xs.map (fun x => x.call.model) ∧
      List.Forall₂ Failed xs.dropLast (outcomeOf p focus as answer).attempts.dropLast := by
  cases answer with
  | none =>
    obtain ⟨-, hall⟩ := h.of_no_answer
    refine ⟨candidates_of_failed hall, ?_⟩
    rw [List.dropLast_eq_take, List.dropLast_eq_take, hall.length_eq]
    exact List.forall₂_take _ hall
  | some cp =>
    obtain ⟨candidate, payload⟩ := cp
    obtain ⟨init, x, rfl, hall, rfl, -⟩ := h.of_answer
    have hattempts : ∃ result, (outcomeOf p focus as (some (x.call.model, payload))).attempts =
        as ++ [⟨x.call.model, result⟩] := by
      by_cases hreadable : Payload.Readable payload
      · obtain ⟨spec, -, hsettle⟩ := settle_of_readable p focus as x.call.model hreadable
        exact ⟨.accepted, by rw [outcomeOf, hsettle]⟩
      · rw [outcomeOf, settle_of_not_readable p focus as x.call.model hreadable]
        exact ⟨.normalizationFailed, rfl⟩
    obtain ⟨result, hattempts⟩ := hattempts
    rw [hattempts, List.dropLast_concat, List.dropLast_concat, List.map_append, List.map_append,
      candidates_of_failed hall]
    exact ⟨rfl, hall⟩

theorem outcome_run (config : Config) (client : Client σ) (p : Project) (history : List Message)
    (prompt : Option String) (s : σ) :
    (run config (some client) p history prompt s).outcome =
      let trial := tryEach client (conversation p history prompt) 1 config.candidates s
      outcomeOf p (focus? p prompt) trial.failed trial.answer := by
  simp only [run, outcomeOf, Ending.after]
  cases (tryEach client (conversation p history prompt) 1 config.candidates s).answer <;> rfl

theorem Account.result_of_mem {p : Project} {history : List Message} {prompt : Option String}
    {o : Outcome} (h : Account candidates p history prompt xs o) {a : Attempt}
    (ha : a ∈ o.attempts) :
    (∃ m, a.result = .backendError m) ∨ (∃ m, a.result = .invalidJson m) ∨
      a.result = .accepted ∨ a.result = .normalizationFailed := by
  have hlast {b : Attempt} (hb : o.attempts.getLast? = some b) :
      a ∈ o.attempts.dropLast ∨ a = b := by
    rwa [← List.dropLast_append_getLast? b hb, List.mem_append, List.mem_singleton] at ha
  have hearlier (ha : a ∈ o.attempts.dropLast) := result_of_mem_failed h.failures ha
  cases h.conclusion with
  | accepted _ _ _ hattempt =>
    rcases hlast hattempt with ha | rfl
    · exact (hearlier ha).imp_right .inl
    · exact .inr (.inr (.inl rfl))
  | refused _ _ _ hattempt =>
    rcases hlast hattempt with ha | rfl
    · exact (hearlier ha).imp_right .inl
    · exact .inr (.inr (.inr rfl))
  | exhausted _ hall => exact (result_of_mem_failed hall ha).imp_right .inl

theorem Account.source_cases {p : Project} {history : List Message} {prompt : Option String}
    {o : Outcome} (h : Account candidates p history prompt xs o) :
    (∃ c, o.source = .model c) ∨ (∃ c, o.source = .fallback (.normalizationFailed c)) ∨
      o.source = .fallback .candidatesExhausted := by
  cases h.conclusion with
  | accepted _ _ _ _ hsource => exact .inl ⟨_, hsource⟩
  | refused _ _ _ _ hdrafted => exact .inr (.inl ⟨_, hdrafted.source⟩)
  | exhausted _ _ hdrafted => exact .inr (.inr hdrafted.source)

/-- The outcome of a run is accounted for by its exchanges, and recording them has no effect. -/
theorem account_run (config : Config) (client : Client σ) (p : Project) (history : List Message)
    (prompt : Option String) (s : σ) :
    let o := (run config (some client) p history prompt s).outcome
    let recorded := run config (some client.recorded) p history prompt (s, [])
    recorded.outcome = o ∧ Account config.candidates p history prompt recorded.state.2 o := by
  obtain ⟨xs, htrial, hwent⟩ := tryEach_recorded client
    (conversation p history prompt) 1 config.candidates s []
  have hstate : (run config (some client.recorded) p history prompt (s, [])).state.2 = xs := by
    simp only [run, htrial, List.nil_append]
  obtain ⟨hattempts, hfailures⟩ := attempts_outcomeOf p (focus? p prompt) hwent
  simp only [outcome_run, hstate, htrial, true_and]
  exact ⟨hwent.calls, hattempts, hfailures, conclusion_outcomeOf p (focus? p prompt) hwent⟩

theorem run_without_client (config : Config) (p : Project) (history : List Message)
    (prompt : Option String) (s : σ) :
    let o := (run config none p history prompt s).outcome
    o.attempts = [] ∧ Drafted p (focus? p prompt) .noClient o :=
  ⟨rfl, drafted_fallBack p (focus? p prompt) .noClient []⟩

/-- A run with a client asks a prefix of the candidates, in order and all alike, until an answer is
JSON. That answer decides the outcome. Without a client there is no attempt. -/
theorem exchanges_decide_run (config : Config) (p : Project) (history : List Message)
    (prompt : Option String) (s : σ) :
    (∀ client : Client σ,
      let o := (run config (some client) p history prompt s).outcome
      let recorded := run config (some client.recorded) p history prompt (s, [])
      recorded.outcome = o ∧ Account config.candidates p history prompt recorded.state.2 o ∧
        ∀ a ∈ o.attempts.dropLast,
          (∃ m, a.result = .backendError m) ∨ ∃ m, a.result = .invalidJson m) ∧
    let o := (run config (none : Option (Client σ)) p history prompt s).outcome
    o.attempts = [] ∧ Drafted p (focus? p prompt) .noClient o := by
  refine ⟨fun client => ?_, run_without_client config p history prompt s⟩
  obtain ⟨houtcome, haccount⟩ := account_run config client p history prompt s
  exact ⟨houtcome, haccount, fun a ha => result_of_mem_failed haccount.failures ha⟩

end Mockup.Generation
