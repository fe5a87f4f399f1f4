import Mockup.Proofs.Generation.Account
import Mockup.Proofs.Payload.Ordered
import Mockup.Proofs.Synthesis.Canonical

/-! The mark of a specification that no model produced. One made from a project alone carries it
always; one made of an answer carries it if the metadata of the answer does, as they are kept. -/

namespace Mockup

open Json Chat

namespace Payload

def Marked (raw : Value) : Prop :=
  ∃ m d : Members, root raw = .ok m ∧ (unwrap m).get? "metadata" = some (.object d) ∧
    d.get? "fallback" = some (.bool true)

theorem get?_metadata? (ctx : Context) (m : Members) {key : String}
    (hkey : key ≠ "assistant_metrics") :
    (metadata? ctx m).bind (Members.get? · key) =
      ((m.get? "metadata").bind Value.object?).bind (Members.get? · key) := by
  rw [metadata?]
  split
  · rfl
  · rw [Option.bind_some, Members.get?_set, if_neg hkey]
    cases (m.get? "metadata").bind Value.object? <;> rfl

theorem isFallback_of_normalize {ctx : Context} {raw : Value} {s : Spec} (hraw : raw.WellFormed)
    (h : normalize ctx raw = .ok s) : s.isFallback = true ↔ Marked raw := by
  obtain ⟨m, hroot, rfl⟩ := normalize_ok_iff.mp h
  have hsorted : (unwrap m).Sorted := (wellFormed_unwrap (wellFormed_root hraw hroot)).sorted
  have hmark : (specOf ctx (rename .spec (unwrap m))).isFallback = true ↔
      (metadata? ctx (rename .spec (unwrap m))).bind (Members.get? · "fallback") =
        some (.bool true) := by
    simp only [Spec.isFallback, specOf]
    split
    · next b hb => simp [hb]
    · next hother => simpa using fun hb => hother true hb
  rw [hmark, get?_metadata? _ _ (by decide), get?_rename (by decide) (by decide) hsorted]
  constructor
  · intro hget
    obtain ⟨d, hd, hget⟩ := Option.bind_eq_some_iff.mp hget
    obtain ⟨v, hv, hobject⟩ := Option.bind_eq_some_iff.mp hd
    cases v with
    | object _ =>
      cases hobject
      exact ⟨m, d, hroot, hv, hget⟩
    | _ => cases hobject
  · rintro ⟨m', d, hroot', hv, hget⟩
    cases Except.ok.inj (hroot.symm.trans hroot')
    rw [hv]
    exact hget

theorem Marked.readable {raw : Value} (h : Marked raw) : Readable raw := by
  obtain ⟨m, -, hroot, -⟩ := h
  exact readable_iff_root.mpr ⟨m, hroot⟩

end Payload

namespace Generation

variable {σ : Type}

/-- The last answer was a payload with the mark. -/
def Echoes (xs : List Exchange) : Prop :=
  ∃ x payload, xs.getLast? = some x ∧ resultOf x = .ok payload ∧ Payload.Marked payload

theorem wellFormed_of_resultOf {x : Exchange} {payload : Value} (h : resultOf x = .ok payload) :
    payload.WellFormed := by
  simp only [resultOf, Reply.parse, Reply.payload] at h
  split at h
  · cases h
  · split at h
    · next v hv =>
      cases h
      split at hv
      · next hparse => exact Except.ok.inj hv ▸ Value.wellFormed_of_parse hparse
      · cases hv
    · cases h

theorem echoes_iff {xs : List Exchange} {x : Exchange} {payload : Value}
    (hlast : xs.getLast? = some x) (hresult : resultOf x = .ok payload) :
    Echoes xs ↔ Payload.Marked payload := by
  constructor
  · rintro ⟨x', payload', hlast', hresult', hmarked⟩
    cases Option.some.inj (hlast.symm.trans hlast')
    cases Except.ok.inj (hresult.symm.trans hresult')
    exact hmarked
  · exact fun hmarked => ⟨x, payload, hlast, hresult, hmarked⟩

theorem exists_error_of_failed {xs : List Exchange} {as : List Attempt}
    (h : List.Forall₂ Failed xs as) : ∀ x ∈ xs, ∃ r, resultOf x = .error r := by
  induction h with
  | nil => exact List.forall_mem_nil _
  | cons hfailed _ ih => exact List.forall_mem_cons.mpr ⟨⟨_, hfailed.2⟩, ih⟩

theorem not_echoes_of_failed {xs : List Exchange} {as : List Attempt}
    (h : List.Forall₂ Failed xs as) : ¬ Echoes xs := by
  rintro ⟨x, payload, hlast, hresult, -⟩
  obtain ⟨r, herror⟩ := exists_error_of_failed h x (List.mem_of_getLast? hlast)
  rw [hresult] at herror
  cases herror

theorem Drafted.usedFallback {p : Project} {focus : Option String} {reason : FallbackReason}
    {o : Outcome} (h : Drafted p focus reason o) : o.usedFallback = true := by
  rw [Outcome.usedFallback, h.source]
  rfl

theorem Drafted.isFallback {p : Project} {focus : Option String} {reason : FallbackReason}
    {o : Outcome} (h : Drafted p focus reason o) : o.spec.isFallback = true :=
  h.spec ▸ Synthesis.isFallback_spec p focus p.phase

theorem Drafted.mark {p : Project} {focus : Option String} {reason : FallbackReason} {o : Outcome}
    {xs : List Exchange} (h : Drafted p focus reason o) (hecho : ¬ Echoes xs) :
    (o.spec.isFallback = o.usedFallback ↔ ¬ Echoes xs) ∧
      (o.usedFallback = true → o.spec = Synthesis.spec p focus p.phase) := by
  have hsame : o.spec.isFallback = o.usedFallback := h.isFallback.trans h.usedFallback.symm
  exact ⟨iff_of_true hsame hecho, fun _ => h.spec⟩

theorem Conclusion.mark {p : Project} {focus : Option String} {candidates : List String}
    {xs : List Exchange} {o : Outcome} (h : Conclusion p focus candidates xs o) :
    (o.spec.isFallback = o.usedFallback ↔ ¬ Echoes xs) ∧
      (o.usedFallback = true → o.spec = Synthesis.spec p focus p.phase) := by
  cases h with
  | accepted hlast hresult _ _ hsource hspec _ =>
    have hused : o.usedFallback = false := by
      rw [Outcome.usedFallback, hsource]
      rfl
    have hmark := Payload.isFallback_of_normalize (wellFormed_of_resultOf hresult) hspec
    rw [hused, echoes_iff hlast hresult, ← hmark, Bool.not_eq_true]
    exact ⟨Iff.rfl, nofun⟩
  | refused hlast hresult hreadable _ hdrafted =>
    have hecho : ¬ Echoes xs := fun hecho =>
      hreadable (Payload.Marked.readable ((echoes_iff hlast hresult).mp hecho))
    exact hdrafted.mark hecho
  | exhausted _ hfailed hdrafted => exact hdrafted.mark (not_echoes_of_failed hfailed)

/-- The mark tells whether a model produced the specification, unless the answer that it is made of
carries the mark itself. What no model produced is made from the project alone. -/
theorem isFallback_eq_usedFallback_iff (config : Config) (client : Option (Client σ)) (p : Project)
    (history : List Message) (prompt : Option String) (s : σ) :
    let o := (run config client p history prompt s).outcome
    let recorded := run config (client.map Client.recorded) p history prompt (s, [])
    recorded.outcome = o ∧ (o.spec.isFallback = o.usedFallback ↔ ¬ Echoes recorded.state.2) ∧
      (o.usedFallback = true → o.spec = Synthesis.spec p (focus? p prompt) p.phase) := by
  cases client with
  | none =>
    obtain ⟨-, hdrafted⟩ := run_without_client config p history prompt s
    have hecho : ¬ Echoes [] := nofun
    exact ⟨rfl, hdrafted.mark hecho⟩
  | some client =>
    obtain ⟨houtcome, haccount⟩ := account_run config client p history prompt s
    exact ⟨houtcome, haccount.conclusion.mark⟩

theorem outcome_of_first {config : Config} {client : Client σ} {p : Project}
    {history : List Message} {prompt : Option String} {s : σ} {c : String} {rest : List String}
    {payload : Value} (hcandidates : config.candidates = c :: rest)
    (hresult : resultOf (exchangeWith client (conversation p history prompt) c s) = .ok payload) :
    (run config (some client) p history prompt s).outcome =
      (settle p (focus? p prompt) [] c payload).outcome := by
  have hasked : (ask client (conversation p history prompt) c 1 s).result = .ok payload :=
    (ask_result client _ c 1 s).trans hresult
  simp only [outcome_run, hcandidates, tryEach, hasked, outcomeOf]

theorem source_of_marked {config : Config} {client : Client σ} {p : Project}
    {history : List Message} {prompt : Option String} {s : σ} {c : String} {rest : List String}
    {payload : Value} (hcandidates : config.candidates = c :: rest)
    (hresult : resultOf (exchangeWith client (conversation p history prompt) c s) = .ok payload)
    (hmarked : Payload.Marked payload) :
    let o := (run config (some client) p history prompt s).outcome
    o.source = .model c ∧ o.spec.isFallback = true := by
  obtain ⟨spec, hspec, hsettle⟩ :=
    settle_of_readable p (focus? p prompt) [] c hmarked.readable
  dsimp only
  rw [outcome_of_first hcandidates hresult, hsettle]
  exact ⟨rfl, (Payload.isFallback_of_normalize (wellFormed_of_resultOf hresult) hspec).mpr hmarked⟩

theorem candidates_default : ({} : Config).candidates = ["gpt-4o-mini", "gpt-4.1-mini", "gpt-4o"] := by
  decide

theorem resultOf_canned {reply : String} {payload : Value} (hparse : Reply.parse reply = .ok payload)
    (messages : List Message) (c : String) :
    resultOf (exchangeWith Canned.client messages c ⟨[.ok reply], []⟩) = .ok payload := by
  simp only [resultOf, exchangeWith, Canned.client, Canned.complete, hparse]

def markedReply : String := "\x7b\"metadata\":\x7b\"fallback\":true\x7d\x7d"

/-- A model sends nothing but the mark, which gets into the specification. -/
theorem marked_by_model :
    let client := some Canned.client
    let o := (run {} client { title := "Shop" } [] none ⟨[.ok markedReply], []⟩).outcome
    o.usedFallback = false ∧ o.spec.isFallback = true := by
  have hparse : Reply.parse markedReply =
      .ok (.object [("metadata", .object [("fallback", .bool true)])]) := rfl
  obtain ⟨hsource, hmark⟩ :=
    source_of_marked candidates_default (resultOf_canned hparse _ _) ⟨_, _, rfl, rfl, rfl⟩
  refine ⟨?_, hmark⟩
  rw [Outcome.usedFallback, hsource]
  rfl

end Generation

end Mockup
