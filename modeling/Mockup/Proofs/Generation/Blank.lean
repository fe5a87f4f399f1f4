import Mockup.Proofs.Generation.Mark
import Mockup.Proofs.Payload.Unread
import Mockup.Proofs.Text.Choice

/-! Blank texts in a generation. What is blank in a project, and of the texts from which the focus and
the message are chosen, counts for as much as what is missing; but the choices are made before that,
so a blank text that comes first hides the others. -/

namespace Mockup

open Json Chat

namespace Reply

variable {v w : Value} {m n : Members} {s t : String}

def messageTexts (m : Members) : List (Option String) :=
  messageKeys.map fun key => (m.get? key).bind Value.text?

theorem message?_object (m : Members) : message? (.object m) = Text.chosen? (messageTexts m) := by
  rw [message?, Value.object?, Option.bind_some, messageTexts, Text.chosen?, List.findSome?_map]
  rfl

/-- The second payload is the first without some of its blank messages, and those hidden by them.
Nothing but texts counts under the keys of the message. -/
inductive Thins : Value → Value → Prop where
  | same (v : Value) : Thins v v
  | object {m n : Members} : Payload.SameBut messageKeys m n →
    Text.Thins (messageTexts m) (messageTexts n) → Thins (.object m) (.object n)
  | encoded {s t : String} {m n : Members} : Value.parse s = .ok (.object m) →
    Value.parse t = .ok (.object n) → Payload.SameBut messageKeys m n → Thins (.text s) (.text t)

theorem Thins.message?_eq (h : Thins v w) : message? w = message? v := by
  cases h with
  | same => rfl
  | object _ htexts => rw [message?_object, message?_object, htexts.chosen?_eq]
  | encoded _ _ _ => rfl

theorem Thins.normalize_eq (h : Thins v w) (hv : v.WellFormed) (hw : w.WellFormed)
    (ctx : Context) : Payload.normalize ctx w = Payload.normalize ctx v := by
  cases h with
  | same => rfl
  | object hkeys _ =>
    simp only [Payload.normalize, Payload.root, Except.map, hkeys.specOf_unwrap hv.sorted hw.sorted]
  | encoded hs ht hkeys =>
    have hspec := hkeys.specOf_unwrap (Value.wellFormed_of_parse hs).sorted
      (Value.wellFormed_of_parse ht).sorted
    simp only [Payload.normalize, Payload.root, hs, ht, Except.map, hspec]

end Reply

/-- The second project is the first without some of its blank texts. The focus is apart, as it
stands in a choice. -/
structure Project.Thins (p q : Project) : Prop where
  title : q.title = p.title
  goals : q.goals = p.goals
  summary : Text.Omits p.summary q.summary
  northStar : Text.Omits p.northStar q.northStar
  phase : Text.Omits p.phase q.phase

theorem Project.Thins.statedGoals {p q : Project} (h : p.Thins q) :
    q.statedGoals = p.statedGoals := by
  rw [Project.statedGoals, Project.statedGoals, h.goals]

namespace Generation

variable {σ τ : Type} {p q : Project} {prompt prompt' focus : Option String} {v w : Value}
  {messages messages' : List Message} {client : Client σ} {client' : Client τ}
  {R : σ → τ → Prop} {s : σ} {t : τ}

theorem focus?_eq_chosen? (p : Project) (prompt : Option String) :
    focus? p prompt = Text.chosen? [p.focus, prompt] := by
  rw [focus?, Text.chosen?]
  cases p.focus <;> cases prompt <;> rfl

theorem contextOf_congr (h : p.Thins q) (focus notes : Option String) :
    contextOf q focus notes = contextOf p focus notes := by
  have hsynopsis : q.synopsis = p.synopsis := by
    rw [Project.synopsis, Project.synopsis, h.summary.bind_filled?, h.statedGoals]
  rw [contextOf, contextOf, h.title, hsynopsis, h.statedGoals]

theorem spec_congr (h : p.Thins q) (focus : Option String) :
    Synthesis.spec q focus q.phase = Synthesis.spec p focus p.phase := by
  have hphase : Synthesis.clean q.phase = Synthesis.clean p.phase := h.phase.bind_filled?
  have hmetric : Synthesis.clean q.northStar = Synthesis.clean p.northStar :=
    h.northStar.bind_filled?
  simp only [Synthesis.spec, h.title, h.statedGoals, hphase, hmetric]

theorem fallBack_congr (h : p.Thins q) (focus : Option String) (reason : FallbackReason)
    (attempts : List Attempt) :
    fallBack q focus reason attempts = fallBack p focus reason attempts := by
  simp only [fallBack, spec_congr h]

theorem settle_congr (h : p.Thins q) (hpayload : Reply.Thins v w) (hv : v.WellFormed)
    (hw : w.WellFormed) (focus : Option String) (failed : List Attempt) (candidate : String) :
    settle q focus failed candidate w = settle p focus failed candidate v := by
  simp only [settle, hpayload.message?_eq, contextOf_congr h, hpayload.normalize_eq hv hw,
    fallBack_congr h]

inductive ThinAnswer : Answer → Answer → Prop where
  | same (a : Answer) : ThinAnswer a a
  | reply {text text' : String} {v w : Value} : Reply.parse text = .ok v →
    Reply.parse text' = .ok w → Reply.Thins v w → ThinAnswer (.ok text) (.ok text')

/-- Two clients, each in a conversation of its own, answer alike whoever is asked, and go on alike
after it. -/
structure Alike (client : Client σ) (client' : Client τ) (messages messages' : List Message)
    (R : σ → τ → Prop) : Prop where
  answer : ∀ {s t}, R s t → ∀ c, ThinAnswer (client.complete (callOf messages c) s).1
    (client'.complete (callOf messages' c) t).1
  state : ∀ {s t}, R s t → ∀ c, R (client.complete (callOf messages c) s).2
    (client'.complete (callOf messages' c) t).2

theorem resultOf_cases {x y : Exchange} (h : ThinAnswer x.answer y.answer) :
    (∃ r, resultOf x = .error r ∧ resultOf y = .error r) ∨
      ∃ v w, resultOf x = .ok v ∧ resultOf y = .ok w ∧ Reply.Thins v w := by
  rw [resultOf, resultOf]
  generalize x.answer = a at h ⊢
  generalize y.answer = b at h ⊢
  cases h with
  | same =>
    cases a with
    | error m => exact .inl ⟨_, rfl, rfl⟩
    | ok text =>
      dsimp only
      cases Reply.parse text with
      | error m => exact .inl ⟨_, rfl, rfl⟩
      | ok v => exact .inr ⟨v, v, rfl, rfl, .same v⟩
  | reply hv hw hthins =>
    simp only [hv, hw]
    exact .inr ⟨_, _, rfl, rfl, hthins⟩

structure ThinPayload (x y : String × Value) : Prop where
  candidate : y.1 = x.1
  thins : Reply.Thins x.2 y.2
  wellFormed : x.2.WellFormed ∧ y.2.WellFormed

theorem ask_state (client : Client σ) (messages : List Message) (candidate : String)
    (number : Nat) (s : σ) :
    (ask client messages candidate number s).state =
      (client.complete (callOf messages candidate) s).2 := by
  simp only [ask, callOf]
  rcases client.complete ⟨candidate, messages, .json⟩ s with ⟨_ | reply, t⟩
  · rfl
  · dsimp only
    cases Reply.parse reply <;> rfl

theorem ask_cases (h : Alike client client' messages messages' R) (hst : R s t) (candidate : String)
    (number : Nat) :
    let asked := ask client messages candidate number s
    let asked' := ask client' messages' candidate number t
    R asked.state asked'.state ∧
      ((∃ r, asked.result = .error r ∧ asked'.result = .error r) ∨
        ∃ v w, asked.result = .ok v ∧ asked'.result = .ok w ∧
          ThinPayload (candidate, v) (candidate, w)) := by
  dsimp only
  rw [ask_state, ask_state, ask_result, ask_result]
  refine ⟨h.state hst candidate, ?_⟩
  have hanswer : ThinAnswer (exchangeWith client messages candidate s).answer
      (exchangeWith client' messages' candidate t).answer := h.answer hst candidate
  refine (resultOf_cases hanswer).imp_right ?_
  rintro ⟨v, w, hv, hw, hthins⟩
  exact ⟨v, w, hv, hw, rfl, hthins, wellFormed_of_resultOf hv, wellFormed_of_resultOf hw⟩

theorem tryEach_rel (h : Alike client client' messages messages' R) (hst : R s t) (number : Nat)
    (candidates : List String) :
    let trial := tryEach client messages number candidates s
    let trial' := tryEach client' messages' number candidates t
    trial'.failed = trial.failed ∧ Option.Rel ThinPayload trial.answer trial'.answer := by
  induction candidates generalizing number s t with
  | nil => exact ⟨rfl, .none⟩
  | cons c rest ih =>
    obtain ⟨hstate, ⟨r, hr, hr'⟩ | ⟨v, w, hv, hw, hthin⟩⟩ := ask_cases h hst c number
    · obtain ⟨hfailed, hanswer⟩ := ih hstate (number + 1)
      simp only [tryEach, hr, hr', hfailed]
      exact ⟨trivial, hanswer⟩
    · simp only [tryEach, hv, hw]
      exact ⟨trivial, .some hthin⟩

theorem outcomeOf_congr (h : p.Thins q) {answer answer' : Option (String × Value)}
    (hanswer : Option.Rel ThinPayload answer answer') (focus : Option String)
    (failed : List Attempt) :
    outcomeOf q focus failed answer' = outcomeOf p focus failed answer := by
  rcases hanswer with hthin | -
  · obtain ⟨hcandidate, hthins, hv, hw⟩ := hthin
    simp only [outcomeOf, hcandidate, settle_congr h hthins hv hw]
  · rw [outcomeOf, outcomeOf, fallBack_congr h]

/-- Blank texts of a project, a blank prompt and blank messages in replies count as missing: where
the replies are the same but for those, so is the outcome. A blank focus before a prompt hides it,
and so does a blank message before another; what is hidden may be missing as well, and the blank
text may not be missing without it. -/
theorem outcome_without_blanks (config : Config) (history : List Message) (hp : p.Thins q)
    (hfocus : Text.Thins [p.focus, prompt] [q.focus, prompt']) :
    (∀ (s : σ) (t : τ), (run config (none : Option (Client σ)) p history prompt s).outcome =
      (run config (none : Option (Client τ)) q history prompt' t).outcome) ∧
    ∀ (client : Client σ) (client' : Client τ) (R : σ → τ → Prop) (s : σ) (t : τ),
      Alike client client' (conversation p history prompt) (conversation q history prompt') R →
        R s t → (run config (some client) p history prompt s).outcome =
          (run config (some client') q history prompt' t).outcome := by
  have hchosen : focus? q prompt' = focus? p prompt := by
    rw [focus?_eq_chosen?, focus?_eq_chosen?, hfocus.chosen?_eq]
  refine ⟨fun s t => ?_, fun client client' R s t halike hst => ?_⟩
  · simp only [run, Ending.after, hchosen, fallBack_congr hp]
  · obtain ⟨hfailed, hanswer⟩ := tryEach_rel halike hst 1 config.candidates
    simp only [outcome_run, hchosen, hfailed, outcomeOf_congr hp hanswer]

theorem alike_canned (messages messages' : List Message) :
    Alike Canned.client Canned.client messages messages'
      (fun s t => List.Forall₂ ThinAnswer s.answers t.answers) where
  answer := by
    rintro ⟨answers, calls⟩ ⟨answers', calls'⟩ h c
    rcases h with _ | ⟨ha, -⟩
    · exact .same _
    · exact ha
  state := by
    rintro ⟨answers, calls⟩ ⟨answers', calls'⟩ h c
    rcases h with _ | ⟨-, hrest⟩
    · exact .nil
    · exact hrest

section Demo

/-! A project and a reply with blank texts, and the same without. -/

def offline (p : Project) (prompt : Option String) : Outcome :=
  (run {} (none : Option (Client Unit)) p [] prompt ()).outcome

def replied (p : Project) (reply : String) : Outcome :=
  (run {} (some Canned.client) p [] none ⟨[.ok reply], []⟩).outcome

def paddedProject : Project :=
  { title := "Shop", summary := some " ", northStar := some "", focus := some "Checkout",
    phase := some "\t" }

def plainProject : Project := { title := "Shop", focus := some "Checkout" }

def paddedReply : String := "\x7b\"message\":\"Hello\",\"reply\":\" \"\x7d"

def plainReply : String := "\x7b\"message\":\"Hello\"\x7d"

theorem thins_paddedProject : paddedProject.Thins plainProject where
  title := rfl
  goals := rfl
  summary := .inr ⟨rfl, by decide⟩
  northStar := .inr ⟨rfl, by decide⟩
  phase := .inr ⟨rfl, by decide⟩

theorem parse_plainReply :
    Reply.parse plainReply = .ok (.object [("message", .text "Hello")]) := rfl

theorem thinAnswer_padded : ThinAnswer (.ok paddedReply) (.ok plainReply) := by
  have hpadded : Reply.parse paddedReply =
      .ok (.object [("message", .text "Hello"), ("reply", .text " ")]) := rfl
  refine .reply hpadded parse_plainReply (.object (fun key hkey => ?_) (Text.thins_of_omits ?_ ?_))
  · simp only [Reply.messageKeys, List.mem_cons, not_or] at hkey
    simp [Members.get?_cons, hkey]
  · exact Text.not_hides_of_filled (t := "Hello") rfl (by decide)
  · exact .cons (.inl rfl) (.cons (.inl rfl) (.cons (.inl rfl) (.cons (.inr ⟨rfl, by decide⟩) .nil)))

def hidingProject : Project := { title := "Shop", focus := some " " }

theorem outcome_without_blanks_shop :
    (paddedProject.Thins plainProject ∧ ThinAnswer (.ok paddedReply) (.ok plainReply) ∧
      Text.Thins [paddedProject.focus, some " "] [plainProject.focus, none] ∧
      (run {} (some Canned.client) paddedProject [] (some " ")
          ⟨[.error "busy", .ok paddedReply], []⟩).outcome =
        (run {} (some Canned.client) plainProject [] none
          ⟨[.error "busy", .ok plainReply], []⟩).outcome) ∧
    offline hidingProject (some "Checkout") = offline { title := "Shop" } none := by
  constructor
  · have hfocus : Text.Thins [paddedProject.focus, some " "] [plainProject.focus, none] := by
      refine Text.thins_of_omits (Text.not_hides_of_filled (t := "Checkout") rfl (by decide)) ?_
      exact .cons (.inl rfl) (.cons (.inr ⟨rfl, by decide⟩) .nil)
    refine ⟨thins_paddedProject, thinAnswer_padded, hfocus, ?_⟩
    refine (outcome_without_blanks {} [] thins_paddedProject hfocus).2 _ _ _ _ _
      (alike_canned _ _) ?_
    exact .cons (.same _) (.cons thinAnswer_padded .nil)
  · have hproject : hidingProject.Thins { title := "Shop" } :=
      ⟨rfl, rfl, .inl rfl, .inl rfl, .inl rfl⟩
    have hhides : Text.Hides [some " ", some "Checkout"] :=
      ⟨⟨" ", rfl, by decide⟩, "Checkout", by simp, by decide⟩
    have hfocus : Text.Thins [hidingProject.focus, some "Checkout"] [none, none] :=
      ⟨.cons (.inr ⟨rfl, fun _ _ => .inr hhides⟩) (.cons (.inr ⟨rfl, fun _ _ => .inr hhides⟩) .nil),
        nofun⟩
    exact (outcome_without_blanks {} [] hproject hfocus).1 () ()

theorem message_replied {reply : String} {m : Members}
    (hparse : Reply.parse reply = .ok (.object m)) (p : Project) :
    ∃ spec, (replied p reply).message =
      (Reply.message? (.object m)).getD (defaultMessage spec) := by
  have hreadable : Payload.Readable (.object m) := Payload.readable_iff_root.mpr ⟨m, rfl⟩
  obtain ⟨spec, -, hsettle⟩ := settle_of_readable p (focus? p none) [] "gpt-4o-mini" hreadable
  refine ⟨spec, ?_⟩
  rw [replied, outcome_of_first candidates_default (resultOf_canned hparse _ _), hsettle]

theorem defaultMessage_ne (spec : Spec) : defaultMessage spec ≠ "Hello" := by
  intro h
  have hletter := congrArg (fun t : String => t.toList[2]?) h
  simp [defaultMessage] at hletter

def hidingReply : String := "\x7b\"assistant_message\":\" \",\"message\":\"Hello\"\x7d"

theorem parse_hidingReply : Reply.parse hidingReply =
    .ok (.object [("assistant_message", .text " "), ("message", .text "Hello")]) := rfl

theorem blank_texts_hide :
    (offline hidingProject (some "Checkout")).spec.summary ≠
      (offline { title := "Shop" } (some "Checkout")).spec.summary ∧
    (replied { title := "Shop" } hidingReply).message ≠
      (replied { title := "Shop" } plainReply).message := by
  refine ⟨by decide, ?_⟩
  obtain ⟨spec, hhidden⟩ := message_replied parse_hidingReply { title := "Shop" }
  obtain ⟨_, hplain⟩ := message_replied parse_plainReply { title := "Shop" }
  have hnone : Reply.message? (.object [("assistant_message", .text " "),
      ("message", .text "Hello")]) = none := by decide
  have hsome : Reply.message? (.object [("message", .text "Hello")]) = some "Hello" := by decide
  rw [hhidden, hplain, hnone, hsome, Option.getD_none, Option.getD_some]
  exact defaultMessage_ne spec

end Demo

end Generation

end Mockup
