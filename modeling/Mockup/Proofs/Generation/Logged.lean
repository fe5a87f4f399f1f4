import Mockup.Proofs.Generation.Account
import Mockup.Proofs.Generation.Live
import Mockup.Proofs.Log.Journal

/-! The log of a run and its outcome. The entries between the first and the last tell of one attempt
after the other what its exchange and its record say, and the end tells where the specification is
from. -/

namespace Mockup.Log.Entry

open Json

/-- An entry as its reader sees it: the names of its kind and its level, its message and the members
of its details. -/
structure Says (e : Entry) (name level message : String) (members : Members) : Prop where
  kind : e.kind.name = name
  level : e.level.name = level
  message : e.message = message
  details : e.details = some (.object members)

section Details

variable {key key' : String} {v w : Value}

theorem described_pair (h : key < key') :
    described [(key, v), (key', w)] = some (.object [(key, v), (key', w)]) := by
  rw [described, Value.mapping, Members.sorted, List.foldl, List.foldl, List.foldl, Members.set,
    Members.set, if_neg h.asymm, if_neg h.ne', Members.set]

theorem described_swapped (h : key' < key) :
    described [(key, v), (key', w)] = some (.object [(key', w), (key, v)]) := by
  rw [described, Value.mapping, Members.sorted, List.foldl, List.foldl, List.foldl, Members.set,
    Members.set, if_pos h]

end Details

theorem says_generationStart (project : String) (candidates : List String) :
    (generationStart project candidates).Says "generation_start" "info"
      ("Generating prototype for " ++ project)
      [("candidates", .list (candidates.map .text)), ("project", .text project)] :=
  ⟨rfl, rfl, rfl, described_swapped (by decide)⟩

theorem says_attemptStarted (candidate : String) (attempt : Nat) :
    (attemptStarted candidate attempt).Says "attempt_started" "info"
      ("Attempt " ++ toString attempt ++ " with " ++ candidate)
      [("attempt", .count attempt), ("candidate", .text candidate)] :=
  ⟨rfl, rfl, rfl, described_swapped (by decide)⟩

theorem says_responseReceived (candidate response : String) :
    (responseReceived candidate response).Says "response_received" "debug"
      ("Response from " ++ candidate)
      [("candidate", .text candidate), ("response", .text response),
        ("response_length", .count response.utf8ByteSize)] :=
  ⟨rfl, rfl, rfl, by
    simp +decide only [responseReceived, described, Value.mapping, Members.sorted, Members.set,
      List.foldl, ↓reduceIte]⟩

theorem says_attemptFailed (candidate reason : String) :
    (attemptFailed candidate reason).Says "attempt_failed" "warn"
      ("Candidate " ++ candidate ++ " failed")
      [("candidate", .text candidate), ("reason", .text reason)] :=
  ⟨rfl, rfl, rfl, described_pair (by decide)⟩

theorem says_normalization_none (candidate : String) :
    (normalization candidate none).Says "normalization_result" "warn"
      "Normalization produced nothing" [("candidate", .text candidate), ("screens", .null)] :=
  ⟨rfl, rfl, rfl, described_pair (by decide)⟩

theorem says_normalization_some (candidate : String) (screens : Nat) :
    (normalization candidate (some screens)).Says "normalization_result" "info"
      ("Normalized " ++ toString screens ++ " screen(s)")
      [("candidate", .text candidate), ("screens", .count screens)] :=
  ⟨rfl, rfl, rfl, described_pair (by decide)⟩

theorem says_validation (candidate : String) :
    (validation candidate true none).Says "validation_result" "info"
      ("Validation passed for " ++ candidate)
      [("candidate", .text candidate), ("error", .null), ("passed", .bool true)] :=
  ⟨rfl, rfl, rfl, by
    simp +decide only [validation, described, Value.mapping, Members.sorted, Members.set,
      List.foldl, ↓reduceIte]
    rfl⟩

theorem says_fallback (reason : String) :
    (fallback reason).Says "fallback_used" "warn" "Using deterministic fallback"
      [("reason", .text reason)] :=
  ⟨rfl, rfl, rfl, rfl⟩

theorem says_generationEnd (source : String) (screens : Nat) :
    (generationEnd source screens).Says "generation_end" "info"
      ("Generation finished via " ++ source)
      [("screens", .count screens), ("source", .text source)] :=
  ⟨rfl, rfl, rfl, described_swapped (by decide)⟩

end Mockup.Log.Entry

namespace Mockup.Generation

open Json Chat

variable {σ : Type} {client : Client σ} {messages : List Message} {candidates : List String}
  {xs : List Exchange} {as : List Attempt} {answer : Option (String × Value)} {spec : Spec}
  {number : Nat}

inductive Heard (x : Exchange) : List Log.Entry → Prop where
  | text {reply : String} {received : Log.Entry} : x.answer = .ok reply →
    received.Says "response_received" "debug" ("Response from " ++ x.call.model)
      [("candidate", .text x.call.model), ("response", .text reply),
        ("response_length", .count reply.utf8ByteSize)] →
    Heard x [received]
  | nothing {m : String} : x.answer = .error m → Heard x []

/-- What is logged of how an attempt ended, which is never with a specification that is not
valid. -/
inductive Closes (spec : Spec) (candidate : String) : AttemptResult → List Log.Entry → Prop where
  | backendError {m : String} {failed : Log.Entry} :
    failed.Says "attempt_failed" "warn" ("Candidate " ++ candidate ++ " failed")
      [("candidate", .text candidate), ("reason", .text ("backend error: " ++ m))] →
    Closes spec candidate (.backendError m) [failed]
  | invalidJson {m : String} {failed : Log.Entry} :
    failed.Says "attempt_failed" "warn" ("Candidate " ++ candidate ++ " failed")
      [("candidate", .text candidate), ("reason", .text ("invalid JSON: " ++ m))] →
    Closes spec candidate (.invalidJson m) [failed]
  | normalizationFailed {normalized : Log.Entry} :
    normalized.Says "normalization_result" "warn" "Normalization produced nothing"
      [("candidate", .text candidate), ("screens", .null)] →
    Closes spec candidate .normalizationFailed [normalized]
  | accepted {normalized validated : Log.Entry} :
    normalized.Says "normalization_result" "info"
      ("Normalized " ++ toString spec.keyScreens.length ++ " screen(s)")
      [("candidate", .text candidate), ("screens", .count spec.keyScreens.length)] →
    validated.Says "validation_result" "info" ("Validation passed for " ++ candidate)
      [("candidate", .text candidate), ("error", .null), ("passed", .bool true)] →
    Closes spec candidate .accepted [normalized, validated]

/-- What is logged of attempts, the first of them as attempt `number`. -/
inductive Reported (spec : Spec) :
    Nat → List Exchange → List Attempt → List Log.Entry → Prop where
  | nil {number : Nat} : Reported spec number [] [] []
  | cons {number : Nat} {x : Exchange} {xs : List Exchange} {a : Attempt} {as : List Attempt}
      {started : Log.Entry} {heard closing later : List Log.Entry} :
      x.call.model = a.candidate →
      started.Says "attempt_started" "info"
        ("Attempt " ++ toString number ++ " with " ++ a.candidate)
        [("attempt", .count number), ("candidate", .text a.candidate)] →
      Heard x heard → Closes spec a.candidate a.result closing →
      Reported spec (number + 1) xs as later →
      Reported spec number (x :: xs) (a :: as) (started :: (heard ++ (closing ++ later)))

inductive Explains : FallbackReason → String → Prop where
  | noClient : Explains .noClient "no generation backend available"
  | candidatesExhausted : Explains .candidatesExhausted "every candidate model failed"
  | normalizationFailed {c : String} :
    Explains (.normalizationFailed c) ("response from " ++ c ++ " could not be normalized")
  | validationFailed {c e : String} :
    Explains (.validationFailed c e) ("response from " ++ c ++ " failed validation: " ++ e)

/-- What is logged when the run is over. -/
inductive Ends (o : Outcome) : List Log.Entry → Prop where
  | model {candidate : String} {last : Log.Entry} : o.source = .model candidate →
    last.Says "generation_end" "info" ("Generation finished via " ++ candidate)
      [("screens", .count o.spec.keyScreens.length), ("source", .text candidate)] →
    Ends o [last]
  | fallback {reason : FallbackReason} {text : String} {used last : Log.Entry} :
    o.source = .fallback reason → Explains reason text →
    used.Says "fallback_used" "warn" "Using deterministic fallback" [("reason", .text text)] →
    last.Says "generation_end" "info" "Generation finished via fallback"
      [("screens", .count o.spec.keyScreens.length), ("source", .text "fallback")] →
    Ends o [used, last]

def attemptKinds : List String :=
  ["attempt_started", "response_received", "attempt_failed", "normalization_result",
    "validation_result"]

/-- The entries tell what the exchanges and the outcome do. -/
structure Tells (candidates : List String) (p : Project) (xs : List Exchange) (o : Outcome)
    (entries : List Log.Entry) : Prop where
  attempts : ∃ first middle last,
    first.Says "generation_start" "info" ("Generating prototype for " ++ p.title)
      [("candidates", .list (candidates.map .text)), ("project", .text p.title)] ∧
    Reported o.spec 1 xs o.attempts middle ∧ (∀ e ∈ middle, e.kind.name ∈ attemptKinds) ∧
    Ends o last ∧ entries = first :: (middle ++ last)
  accepted : ∀ candidate, o.source = .model candidate →
    o.attempts.getLast? = some ⟨candidate, .accepted⟩

def opening (number : Nat) (x : Exchange) : List Log.Entry :=
  .attemptStarted x.call.model number ::
    match x.answer with
    | .ok reply => [.responseReceived x.call.model reply]
    | .error _ => []

def ending (o : Outcome) : List Log.Entry :=
  match o.source with
  | .model candidate => [.generationEnd candidate o.spec.keyScreens.length]
  | .fallback reason =>
    [.fallback reason.message, .generationEnd "fallback" o.spec.keyScreens.length]

def exchangeEntries (number : Nat) (x : Exchange) : List Log.Entry :=
  opening number x ++
    match resultOf x with
    | .ok _ => []
    | .error r => [.attemptFailed x.call.model (failureText r)]

def exchangesEntries : Nat → List Exchange → List Log.Entry
  | _, [] => []
  | number, x :: xs => exchangeEntries number x ++ exchangesEntries (number + 1) xs

theorem ask_entries (client : Client σ) (messages : List Message) (candidate : String)
    (number : Nat) (s : σ) :
    (ask client messages candidate number s).entries =
      exchangeEntries number (exchangeWith client messages candidate s) := by
  simp only [ask, exchangeEntries, opening, exchangeWith, callOf, resultOf]
  rcases client.complete ⟨candidate, messages, .json⟩ s with ⟨_ | reply, t⟩
  · rfl
  · dsimp only
    cases Reply.parse reply <;> rfl

theorem tryEach_entries (client : Client σ) (messages : List Message) (number : Nat)
    (candidates : List String) (s : σ) (xs : List Exchange) :
    ∃ ys, (tryEach client.recorded messages number candidates (s, xs)).state.2 = xs ++ ys ∧
      (tryEach client messages number candidates s).entries = exchangesEntries number ys := by
  induction candidates generalizing number s xs with
  | nil => exact ⟨[], (List.append_nil xs).symm, rfl⟩
  | cons c rest ih =>
    simp only [tryEach, ask_recorded, ask_entries]
    cases hr : (ask client messages c number s).result with
    | ok payload =>
      exact ⟨[exchangeWith client messages c s], rfl, (List.append_nil _).symm⟩
    | error r =>
      obtain ⟨ys, hstate, hentries⟩ := ih (number + 1) (ask client messages c number s).state
        (xs ++ [exchangeWith client messages c s])
      refine ⟨exchangeWith client messages c s :: ys, ?_, ?_⟩
      · simp [hstate]
      · rw [hentries]
        rfl

theorem Reported.opened {x : Exchange} {a : Attempt} {closing later : List Log.Entry}
    (hmodel : x.call.model = a.candidate) (hcloses : Closes spec a.candidate a.result closing)
    (hlater : Reported spec (number + 1) xs as later) :
    Reported spec number (x :: xs) (a :: as) (opening number x ++ (closing ++ later)) := by
  have hstarted := Log.Entry.says_attemptStarted x.call.model number
  rw [hmodel] at hstarted
  rw [opening, hmodel]
  cases hanswer : x.answer with
  | ok reply =>
    have hreceived := Log.Entry.says_responseReceived x.call.model reply
    exact .cons hmodel hstarted (.text hanswer (hmodel ▸ hreceived)) hcloses hlater
  | error m => exact .cons hmodel hstarted (.nothing hanswer) hcloses hlater

theorem Failed.exchangeEntries {x : Exchange} {a : Attempt} (h : Failed x a) (spec : Spec)
    (number : Nat) : ∃ closing, Closes spec a.candidate a.result closing ∧
      exchangeEntries number x = opening number x ++ closing := by
  refine ⟨[.attemptFailed a.candidate (failureText a.result)], ?_, ?_⟩
  · rcases h.result with ⟨m, hm⟩ | ⟨m, hm⟩
    · rw [hm]
      exact .backendError (Log.Entry.says_attemptFailed _ _)
    · rw [hm]
      exact .invalidJson (Log.Entry.says_attemptFailed _ _)
  · rw [Generation.exchangeEntries, h.2, h.1]

/-- Of a trial without an answer everything is logged; of one with an answer, what is still to come
is how the last attempt ended. -/
theorem Went.reported (h : Went messages candidates xs as answer) (spec : Spec) (number : Nat) :
    match answer with
    | none => Reported spec number xs as (exchangesEntries number xs)
    | some (c, _) => ∀ {r : AttemptResult} {closing : List Log.Entry}, Closes spec c r closing →
        Reported spec number xs (as ++ [⟨c, r⟩]) (exchangesEntries number xs ++ closing) := by
  induction h generalizing number with
  | exhausted => exact .nil
  | @answered c rest x payload hcall hresult =>
    intro r closing hcloses
    have hentries : exchangesEntries number [x] = opening number x := by
      simp [exchangesEntries, exchangeEntries, hresult]
    rw [hentries]
    have hmodel : x.call.model = c := by rw [hcall]; rfl
    have hlast : Reported spec number [x] [⟨c, r⟩] (opening number x ++ (closing ++ [])) :=
      .opened hmodel hcloses .nil
    rwa [List.append_nil] at hlast
  | @failed c rest x xs a as answer hcall hfailed _ ih =>
    have hrest := ih (number + 1)
    obtain ⟨closing, hcloses, hentries⟩ := hfailed.exchangeEntries spec number
    cases answer with
    | none =>
      rw [exchangesEntries, hentries, List.append_assoc]
      exact .opened hfailed.1.symm hcloses hrest
    | some cp =>
      intro r last hlast
      rw [exchangesEntries, hentries, List.append_assoc, List.append_assoc]
      exact .opened hfailed.1.symm hcloses (hrest hlast)

theorem Heard.kind {x : Exchange} {heard : List Log.Entry} (h : Heard x heard) :
    ∀ e ∈ heard, e.kind.name ∈ attemptKinds := by
  cases h with
  | text _ hreceived => simp [hreceived.kind, attemptKinds]
  | nothing => exact List.forall_mem_nil _

theorem Closes.kind {candidate : String} {r : AttemptResult} {closing : List Log.Entry}
    (h : Closes spec candidate r closing) : ∀ e ∈ closing, e.kind.name ∈ attemptKinds := by
  cases h with
  | backendError hfailed => simp [hfailed.kind, attemptKinds]
  | invalidJson hfailed => simp [hfailed.kind, attemptKinds]
  | normalizationFailed hnormalized => simp [hnormalized.kind, attemptKinds]
  | accepted hnormalized hvalidated => simp [hnormalized.kind, hvalidated.kind, attemptKinds]

theorem Reported.kind {entries : List Log.Entry} (h : Reported spec number xs as entries) :
    ∀ e ∈ entries, e.kind.name ∈ attemptKinds := by
  induction h with
  | nil => exact List.forall_mem_nil _
  | cons _ hstarted hheard hcloses _ ih =>
    simp only [List.forall_mem_cons, List.forall_mem_append]
    exact ⟨by simp [hstarted.kind, attemptKinds], hheard.kind, hcloses.kind, ih⟩

theorem explains_message : ∀ reason : FallbackReason, Explains reason reason.message
  | .noClient => .noClient
  | .candidatesExhausted => .candidatesExhausted
  | .normalizationFailed _ => .normalizationFailed
  | .validationFailed _ _ => .validationFailed

theorem ends_ending (o : Outcome) : Ends o (ending o) := by
  rw [ending]
  cases hsource : o.source with
  | model candidate => exact .model hsource (Log.Entry.says_generationEnd _ _)
  | fallback reason =>
    exact .fallback hsource (explains_message reason) (Log.Entry.says_fallback _)
      (Log.Entry.says_generationEnd _ _)

theorem settle_entries (p : Project) (focus : Option String) (failed : List Attempt)
    (candidate : String) (payload : Value) :
    let e := settle p focus failed candidate payload
    ∃ r closing, e.outcome.attempts = failed ++ [⟨candidate, r⟩] ∧
      Closes e.outcome.spec candidate r closing ∧ e.entries = closing ++ ending e.outcome := by
  dsimp only
  rw [settle]
  cases hnormal : Payload.normalize (contextOf p focus (Reply.message? payload)) payload with
  | error e =>
    exact ⟨_, _, rfl, .normalizationFailed (Log.Entry.says_normalization_none _), rfl⟩
  | ok spec =>
    have hvalid := (Payload.clean_of_normalize hnormal).valid
    simp only [hvalid]
    exact ⟨_, _, rfl, .accepted (Log.Entry.says_normalization_some _ _)
      (Log.Entry.says_validation _), rfl⟩

theorem run_entries (config : Config) (client : Client σ) (p : Project) (history : List Message)
    (prompt : Option String) (s : σ) :
    let r := run config (some client) p history prompt s
    let xs := (run config (some client.recorded) p history prompt (s, [])).state.2
    ∃ middle, Reported r.outcome.spec 1 xs r.outcome.attempts middle ∧
      r.entries = .generationStart p.title config.candidates :: (middle ++ ending r.outcome) := by
  obtain ⟨ys, htrial, hwent⟩ := tryEach_recorded client (conversation p history prompt) 1
    config.candidates s []
  obtain ⟨zs, hstate, hentries⟩ := tryEach_entries client (conversation p history prompt) 1
    config.candidates s []
  obtain rfl : ys = zs := by rw [htrial] at hstate; exact hstate
  simp only [run, hstate, List.nil_append]
  generalize tryEach client (conversation p history prompt) 1 config.candidates s = trial
    at hwent hentries ⊢
  simp only [Ending.after, hentries, List.cons_append, List.cons.injEq, true_and]
  cases hanswer : trial.answer with
  | none =>
    rw [hanswer] at hwent
    exact ⟨_, hwent.reported _ 1, rfl⟩
  | some cp =>
    obtain ⟨c, payload⟩ := cp
    rw [hanswer] at hwent
    obtain ⟨r, closing, hattempts, hcloses, hending⟩ :=
      settle_entries p (focus? p prompt) trial.failed c payload
    refine ⟨exchangesEntries 1 ys ++ closing, ?_, ?_⟩
    · dsimp only
      rw [hattempts]
      exact hwent.reported _ 1 hcloses
    · dsimp only
      rw [hending, List.append_assoc]

theorem tells_run (config : Config) (client : Option (Client σ)) (p : Project)
    (history : List Message) (prompt : Option String) (s : σ) :
    let r := run config client p history prompt s
    let recorded := run config (client.map Client.recorded) p history prompt (s, [])
    recorded.outcome = r.outcome ∧
      Tells config.candidates p recorded.state.2 r.outcome r.entries := by
  cases client with
  | none =>
    exact ⟨rfl, ⟨_, [], _, Log.Entry.says_generationStart _ _, .nil, List.forall_mem_nil _,
      ends_ending _, rfl⟩, nofun⟩
  | some client =>
    obtain ⟨houtcome, haccount⟩ := account_run config client p history prompt s
    obtain ⟨middle, hreported, hentries⟩ := run_entries config client p history prompt s
    refine ⟨houtcome, ⟨_, middle, _, Log.Entry.says_generationStart _ _, hreported,
      hreported.kind, ends_ending _, hentries⟩, fun c hc => ?_⟩
    cases haccount.conclusion with
    | accepted _ _ _ hlast hsource _ _ =>
      rw [hsource] at hc
      cases hc
      exact hlast
    | refused _ _ _ _ hdrafted =>
      rw [hdrafted.source] at hc
      cases hc
    | exhausted _ _ hdrafted =>
      rw [hdrafted.source] at hc
      cases hc

/-- The entries of a run tell its attempts and its end. A journal that works has a line for each of
them in the end, and whatever becomes of the entries, with any logger and without one the outcome
and the exchanges are the same. -/
theorem log_tells_outcome (config : Config) (client : Option (Client σ)) (p : Project)
    (history : List Message) (prompt : Option String) (s : σ) :
    let r := run config client p history prompt s
    let recorded := run config (client.map Client.recorded) p history prompt (s, [])
    (recorded.outcome = r.outcome ∧
      Tells config.candidates p recorded.state.2 r.outcome r.entries) ∧
    (∀ (j : Log.Journal) (time : String) (d : Files.Disk), j.Works d →
      (Live.run (some (j.logger time)) config client p history prompt s d).2.2.read j.file =
        .ok (j.text d ++ Log.lines time r.entries)) ∧
    ∀ {ε τ : Type} (logger : Option (Log.Logger ε τ)) (t : τ),
      let live := Live.run logger config (client.map Client.recorded) p history prompt (s, []) t
      live.1 = r.outcome ∧ live.2.1 = recorded.state := by
  have htells := tells_run config client p history prompt s
  refine ⟨htells, fun j time d hworks => ?_, fun logger t => ?_⟩
  · obtain ⟨-, ⟨_, _, _, -, -, -, -, hentries⟩, -⟩ := htells
    have hne : (run config client p history prompt s).entries ≠ [] :=
      hentries ▸ List.cons_ne_nil _ _
    simp only [Live.run_eq, Log.quietlyAll_logger]
    exact hworks.read_logAll time hne
  · simp only [Live.run_eq, and_true]
    exact htells.1

def shopReplies : Canned := ⟨[.error "busy", .ok "no JSON"], []⟩

theorem log_tells_outcome_shop :
    let r := run {} (some Canned.client) { title := "Shop" } [] none shopReplies
    let j : Log.Journal := ⟨⟨"generation.jsonl"⟩⟩
    let live :=
      Live.run (some (j.logger "noon")) {} (some Canned.client) { title := "Shop" } [] none
        shopReplies {}
    live.2.2.read j.file = .ok (Log.lines "noon" r.entries) := by
  have hworks : Log.Journal.Works ⟨⟨"generation.jsonl"⟩⟩ {} :=
    Log.Journal.works_iff.mpr ⟨["generation.jsonl"], rfl, nofun⟩
  have hempty : Log.Journal.text ⟨⟨"generation.jsonl"⟩⟩ {} = "" := rfl
  obtain ⟨-, hread, -⟩ :=
    log_tells_outcome {} (some Canned.client) { title := "Shop" } [] none shopReplies
  have hlines := hread _ "noon" {} hworks
  rwa [hempty, String.empty_append] at hlines

end Mockup.Generation
