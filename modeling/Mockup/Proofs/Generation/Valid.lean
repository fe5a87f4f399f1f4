import Mockup.Proofs.Generation.Account

/-! What is normalized is valid, so that no run of a generation rejects the specification of a
candidate after it was made. -/

namespace Mockup.Generation

open Json Chat

variable {σ : Type}

theorem never_validationFailed (config : Config) (client : Option (Client σ)) (p : Project)
    (history : List Message) (prompt : Option String) (s : σ) :
    let o := (run config client p history prompt s).outcome
    (∀ c e, o.source ≠ .fallback (.validationFailed c e)) ∧
      ∀ a ∈ o.attempts, ∀ e, a.result ≠ .validationFailed e := by
  cases client with
  | none =>
    obtain ⟨hattempts, hdrafted⟩ := run_without_client (σ := σ) config p history prompt s
    refine ⟨fun c e h => ?_, fun a ha => ?_⟩
    · rw [hdrafted.source] at h
      cases h
    · rw [hattempts] at ha
      cases ha
  | some client =>
    obtain ⟨-, haccount⟩ := account_run config client p history prompt s
    refine ⟨fun c e h => ?_, fun a ha e h => ?_⟩
    · rcases haccount.source_cases with ⟨_, hs⟩ | ⟨_, hs⟩ | hs <;> rw [hs] at h <;> cases h
    · rcases haccount.result_of_mem ha with ⟨_, hr⟩ | ⟨_, hr⟩ | hr | hr <;> rw [hr] at h <;> cases h

/-- A payload is normalized exactly when it is an object or a text that writes one, all others being
rejected for what they are; whatever comes out is valid, and no run finds it otherwise. -/
theorem normalize_total_valid (ctx : Context) (raw : Value) :
    ((∃ spec, Payload.normalize ctx raw = .ok spec) ↔ Payload.Readable raw) ∧
    (∀ e, Payload.normalize ctx raw = .error e ↔ Payload.Rejects raw e) ∧
    (∀ spec, Payload.normalize ctx raw = .ok spec → spec.validate = .ok ()) ∧
    ∀ (config : Config) (client : Option (Client σ)) (p : Project) (history : List Message)
      (prompt : Option String) (s : σ),
      let o := (run config client p history prompt s).outcome
      (∀ c e, o.source ≠ .fallback (.validationFailed c e)) ∧
        ∀ a ∈ o.attempts, ∀ e, a.result ≠ .validationFailed e :=
  ⟨Payload.exists_normalize_ok_iff, fun _ => Payload.normalize_error_iff,
    fun _ h => (Payload.clean_of_normalize h).valid,
    fun config client p history prompt s => never_validationFailed config client p history prompt s⟩

end Mockup.Generation
