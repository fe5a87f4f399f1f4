import Mockup.CommandLine.Execution
import Mockup.Proofs.Log.Journal
import Mockup.Proofs.Store.Isolated

/-! Commands whose log cannot be written, beside the same commands without a log directory. A log
directory that cannot be made is done without; but once there is a journal, a publication whose
entry it does not take fails the command after the store has changed. -/

namespace Mockup

open Files (Disk Path Location)
open Files.Disk (Agree)

namespace Log.Journal

variable {j : Journal} {d : Disk}

theorem log_of_not_works (h : ¬ j.Works d) (e : Event) :
    ∃ f, j.log d e = (.error (.noFile f), d) := by
  rcases log_cases j d e with ⟨l, hlocate, hfree, -⟩ | ⟨-, hlog⟩
  · exact absurd (works_iff.mpr ⟨l, hlocate, hfree⟩) h
  · exact hlog

theorem logAll_of_not_works (h : ¬ j.Works d) (time : String) (entries : List Entry) :
    j.logAll time d entries = d := by
  induction entries with
  | nil => rfl
  | cons e rest ih =>
    obtain ⟨f, hlog⟩ := log_of_not_works h { e with timestamp := time }
    rw [logAll, List.foldl_cons, hlog]
    exact ih

end Log.Journal

namespace CommandLine

variable {o : Occasion} {c : Config} {d d' : Disk} {owner : String} {spec : Spec}
  {journal : Option Log.Journal}

def unlogged (c : Config) : Config := { c with logDir := none }

def logDisk (c : Config) (d : Disk) : Disk := (journalFor c d).2

def untouched (c : Config) (d : Disk) : Set Location :=
  {l | Disk.entry? (logDisk c d) l = d.entry? l}

def publishedDisk (o : Occasion) (c : Config) (d : Disk) (owner : String) (spec : Spec) : Disk :=
  ((Store.ofConfig c).publish d o.spare o.time owner spec).2

theorem agree_untouched (c : Config) (d : Disk) : Agree (untouched c d) d (logDisk c d) := by
  refine ⟨?_, fun l hl => hl⟩
  unfold logDisk journalFor Log.Journal.create
  cases c.logDir with
  | none => rfl
  | some dir =>
    have hhome := Files.home_run d (.makeDirs (Log.Journal.directory ⟨dir⟩))
    dsimp only
    rcases hrun : (Files.Step.makeDirs (Log.Journal.directory ⟨dir⟩)).run d with ⟨d₁, _ | f⟩
    · rwa [hrun] at hhome
    · rwa [hrun] at hhome

structure LogBlocked (o : Occasion) (c : Config) (d : Disk) (owner : String) (spec : Spec) :
    Prop where
  apart : ∀ p ∈ (Store.ofConfig c).visited d o.spare o.time owner spec, ∀ l ∈ d.looks p,
    l ∈ untouched c d
  before : ∀ j ∈ (journalFor c d).1, ¬ j.Works (logDisk c d)
  after : ∀ j ∈ (journalFor c d).1, ¬ j.Works (publishedDisk o c (logDisk c d) owner spec)

/-- What becomes of a result when nothing can be logged: it stays if there is no journal, and
otherwise it gives way to the failure of the log. -/
inductive Masked {α : Type} : Option Log.Journal → Except Failure α → Except Failure α → Prop where
  | kept (r : Except Failure α) : Masked none r r
  | failed (j : Log.Journal) (r : Except Failure α) (f : Files.Fault) :
    Masked (some j) r (.error (.log (.noFile f)))

theorem Masked.exists_fault {α : Type} {j : Log.Journal} {r r₀ : Except Failure α}
    (h : Masked (some j) r₀ r) : ∃ f, r = .error (.log (.noFile f)) := by
  cases h with
  | failed j r₀ f => exact ⟨f, rfl⟩

theorem LogBlocked.publish (h : LogBlocked o c d owner spec) :
    ((Store.ofConfig c).publish (logDisk c d) o.spare o.time owner spec).1 =
        ((Store.ofConfig c).publish d o.spare o.time owner spec).1 ∧
      Agree (untouched c d) (publishedDisk o c d owner spec)
        (publishedDisk o c (logDisk c d) owner spec) :=
  Store.publish_agree (agree_untouched c d) h.apart

theorem publishLogged_none (o : Occasion) (s : Store) (d : Disk) (owner : String) (spec : Spec) :
    publishLogged o s none d owner spec =
      ((s.publish d o.spare o.time owner spec).1.mapError .store,
        (s.publish d o.spare o.time owner spec).2) := rfl

theorem publishLogged_of_not_works {j : Log.Journal} {s : Store}
    (h : ¬ j.Works (s.publish d o.spare o.time owner spec).2) :
    ∃ f, publishLogged o s (some j) d owner spec =
      (.error (.log (.noFile f)), (s.publish d o.spare o.time owner spec).2) := by
  obtain ⟨f, hlog⟩ := Log.Journal.log_of_not_works h
    { publicationEntry owner (s.publish d o.spare o.time owner spec).1 with timestamp := o.time }
  refine ⟨f, ?_⟩
  simp only [publishLogged, note, hlog]
  rfl

theorem LogBlocked.publishLogged (h : LogBlocked o c d owner spec) :
    let r := CommandLine.publishLogged o (Store.ofConfig c) (journalFor c d).1 (logDisk c d) owner
      spec
    let r₀ := CommandLine.publishLogged o (Store.ofConfig c) none d owner spec
    Masked (journalFor c d).1 r₀.1 r.1 ∧ Agree (untouched c d) r₀.2 r.2 := by
  obtain ⟨hresult, hagree⟩ := h.publish
  have hafter := h.after
  rw [publishLogged_none]
  cases hj : (journalFor c d).1 with
  | none =>
    rw [publishLogged_none, hresult]
    exact ⟨.kept _, hagree⟩
  | some j =>
    obtain ⟨f, hlogged⟩ := publishLogged_of_not_works (hafter j hj)
    rw [hlogged]
    exact ⟨.failed j _ f, hagree⟩

theorem validSpec_of_decode {p : Path} {text : String} (hread : d.read p = .ok text)
    (hdecode : Spec.decode text = .ok spec) (hvalid : spec.validate = .ok ()) :
    validSpec d p = .ok spec := by
  simp only [validSpec, hread, hdecode, hvalid]

theorem compile_of_error {args : CompileArgs} {e : Failure} (h : validSpec d args.spec = .error e)
    (o : Occasion) (c : Config) : compile o c d args = (.error e, d) := by
  rw [compile, h]

theorem compile_of_ok {args : CompileArgs} (h : validSpec d args.spec = .ok spec) (o : Occasion)
    (c : Config) : compile o c d args =
      publishLogged o (Store.ofConfig c) (journalFor c d).1 (logDisk c d) args.owner spec := by
  rw [compile, h]
  rfl

theorem compile_unlogged {args : CompileArgs} (h : validSpec d args.spec = .ok spec) (o : Occasion)
    (c : Config) : compile o (unlogged c) d args =
      (((Store.ofConfig c).publish d o.spare o.time args.owner spec).1.mapError .store,
        publishedDisk o c d args.owner spec) := by
  rw [compile_of_ok h]
  exact publishLogged_none o (Store.ofConfig c) d args.owner spec

theorem compile_of_not_works {args : CompileArgs} {j : Log.Journal}
    (h : validSpec d args.spec = .ok spec) (hj : journalFor c d = (some j, d))
    (hafter : ¬ j.Works (publishedDisk o c d args.owner spec)) :
    ∃ f, compile o c d args = (.error (.log (.noFile f)), publishedDisk o c d args.owner spec) := by
  obtain ⟨f, hlogged⟩ := publishLogged_of_not_works hafter
  refine ⟨f, ?_⟩
  rw [compile_of_ok h, logDisk, hj]
  exact hlogged

section Generate

variable {σ : Type} {client : Option (Chat.Client σ)} {s : σ} {args : GenerateArgs}

theorem run_unlogged (c : Config) (client : Option (Chat.Client σ)) (p : Project)
    (history : List Chat.Message) (prompt : Option String) (s : σ) :
    Generation.run (unlogged c) client p history prompt s =
      Generation.run c client p history prompt s := rfl

theorem generate_of_error {e : Failure} (h : historyOf d args.history = .error e) (o : Occasion)
    (c : Config) (client : Option (Chat.Client σ)) (s : σ) :
    generate o c client s d args = (.error e, d, s) := by
  rw [generate, h]

def specPath (c : Config) (owner : String) : Path := ((Store.ofConfig c).root.join owner).join specName

def conclude (c : Config) (owner : String) (outcome : Generation.Outcome) :
    Except Failure PublishedBundle × Disk → Except Failure Report × Disk
  | (.error e, d) => (.error e, d)
  | (.ok published, d) =>
    match (Files.Step.write (specPath c owner) outcome.spec.indented).run d with
    | (d, some f) => (.error (.unwritten (specPath c owner) f), d)
    | (d, none) => (.ok ⟨outcome, specPath c owner, published⟩, d)

theorem generate_of_ok {history : List Chat.Message} (h : historyOf d args.history = .ok history)
    (o : Occasion) (c : Config) (client : Option (Chat.Client σ)) (s : σ) :
    let run := Generation.run c client args.project history args.prompt s
    let d₁ := match (journalFor c d).1 with
      | some j => j.logAll o.time (logDisk c d) run.entries
      | none => logDisk c d
    let r := conclude c args.owner run.outcome (publishLogged o (Store.ofConfig c) (journalFor c d).1
      d₁ args.owner run.outcome.spec)
    generate o c client s d args = (r.1, r.2, run.state) := by
  rw [generate, h]
  dsimp only [logDisk]
  rcases publishLogged o (Store.ofConfig c) (journalFor c d).1 _ args.owner _ with
    ⟨e | published, d'⟩
  · rfl
  · unfold conclude specPath
    dsimp only
    rcases (Files.Step.write _ _).run d' with ⟨d'', _ | f⟩ <;> rfl

theorem home_publishedDisk (o : Occasion) (c : Config) (d : Disk) (owner : String) (spec : Spec) :
    (publishedDisk o c d owner spec).home = d.home := by
  rw [publishedDisk, Store.publish_snd, Files.home_runActs]

theorem conclude_agree {P : Set Location} (outcome : Generation.Outcome)
    {x x' : Except Failure PublishedBundle × Disk} (hresult : x'.1 = x.1) (h : Agree P x.2 x'.2)
    (hp : ∀ l ∈ x.2.looks (specPath c owner), l ∈ P) :
    (conclude c owner outcome x').1 = (conclude c owner outcome x).1 ∧
      Agree P (conclude c owner outcome x).2 (conclude c owner outcome x').2 := by
  obtain ⟨result, d⟩ := x
  obtain ⟨result', d'⟩ := x'
  obtain rfl : result' = result := hresult
  cases result' with
  | error e => exact ⟨rfl, h⟩
  | ok published =>
    let step : Files.Step := .write (specPath c owner) outcome.spec.indented
    obtain ⟨hfault, hagree⟩ : (step.run d').2 = (step.run d).2 ∧
        Agree P (step.run d).1 (step.run d').1 := h.run hp
    unfold conclude
    dsimp only
    rcases hrun : step.run d with ⟨d₁, f⟩
    rcases hrun' : step.run d' with ⟨d₁', f'⟩
    rw [hrun, hrun'] at hfault hagree
    obtain rfl : f' = f := hfault
    cases f' with
    | none => exact ⟨rfl, hagree⟩
    | some f => exact ⟨rfl, hagree⟩

theorem LogBlocked.conclude (h : LogBlocked o c d owner spec)
    (hp : ∀ l ∈ d.looks (specPath c owner), l ∈ untouched c d) (outcome : Generation.Outcome) :
    let r := CommandLine.conclude c owner outcome
      (CommandLine.publishLogged o (Store.ofConfig c) none (logDisk c d) owner spec)
    let r₀ := CommandLine.conclude c owner outcome
      (CommandLine.publishLogged o (Store.ofConfig c) none d owner spec)
    r.1 = r₀.1 ∧ Agree (untouched c d) r₀.2 r.2 := by
  obtain ⟨hresult, hagree⟩ := h.publish
  refine conclude_agree outcome ?_ hagree ?_
  · rw [publishLogged_none, publishLogged_none, hresult]
  · intro l hl
    have hlooks := Files.Disk.looks_congr (home_publishedDisk o c d owner spec) (specPath c owner)
    exact hp l (hlooks ▸ hl)

theorem generate_of_blocked {history : List Chat.Message}
    (hhistory : historyOf d args.history = .ok history) (hspec : spec =
      (Generation.run c client args.project history args.prompt s).outcome.spec)
    (h : LogBlocked o c d args.owner spec)
    (hp : ∀ l ∈ d.looks (specPath c args.owner), l ∈ untouched c d) :
    let r := generate o c client s d args
    let r₀ := generate o (unlogged c) client s d args
    Masked (journalFor c d).1 r₀.1 r.1 ∧ r.2.2 = r₀.2.2 ∧
      ((journalFor c d).1 = none → Agree (untouched c d) r₀.2.1 r.2.1) ∧
      ((journalFor c d).1 ≠ none →
        Agree (untouched c d) (publishedDisk o c d args.owner spec) r.2.1) := by
  subst hspec
  obtain ⟨-, hagree⟩ := h.publish
  have hbefore := h.before
  have hafter := h.after
  have hrun₀ := generate_of_ok hhistory o (unlogged c) client s
  have hrun := generate_of_ok hhistory o c client s
  dsimp only at hrun hrun₀ ⊢
  rw [hrun, hrun₀, run_unlogged]
  cases hj : (journalFor c d).1 with
  | none =>
    obtain ⟨hconclude, hend⟩ := h.conclude hp
      (Generation.run c client args.project history args.prompt s).outcome
    refine ⟨?_, rfl, fun _ => hend, fun hne => absurd rfl hne⟩
    dsimp only
    rw [hconclude]
    exact .kept _
  | some j =>
    obtain ⟨f, hlogged⟩ := publishLogged_of_not_works (hafter j hj)
    dsimp only
    rw [Log.Journal.logAll_of_not_works (hbefore j hj), hlogged]
    exact ⟨.failed j _ f, rfl, nofun, fun _ => hagree⟩

end Generate

/-- When the log cannot be written, a command whose input is refused ends as without a log
directory, and so does one for which there is no journal. But if there is a journal, then after the
same publication the command fails with the failure of the log, whatever the publication came to,
and a generated specification is not written beside the bundle. -/
theorem commands_unlogged (o : Occasion) (c : Config) (d : Disk) :
    (∀ args : CompileArgs,
      let r := compile o c d args
      let r₀ := compile o (unlogged c) d args
      (∀ e, validSpec d args.spec = .error e → r = r₀) ∧
      ∀ spec, validSpec d args.spec = .ok spec → LogBlocked o c d args.owner spec →
        Masked (journalFor c d).1 r₀.1 r.1 ∧ Agree (untouched c d) r₀.2 r.2) ∧
    ∀ {σ : Type} (client : Option (Chat.Client σ)) (s : σ) (args : GenerateArgs),
      let r := generate o c client s d args
      let r₀ := generate o (unlogged c) client s d args
      (∀ e, historyOf d args.history = .error e → r = r₀) ∧
      ∀ history spec, historyOf d args.history = .ok history →
        spec = (Generation.run c client args.project history args.prompt s).outcome.spec →
        LogBlocked o c d args.owner spec →
        (∀ l ∈ d.looks (specPath c args.owner), l ∈ untouched c d) →
          Masked (journalFor c d).1 r₀.1 r.1 ∧ r.2.2 = r₀.2.2 ∧
            ((journalFor c d).1 = none → Agree (untouched c d) r₀.2.1 r.2.1) ∧
            ((journalFor c d).1 ≠ none →
              Agree (untouched c d) (publishedDisk o c d args.owner spec) r.2.1) := by
  refine ⟨fun args => ⟨fun e he => ?_, fun spec hspec h => ?_⟩, fun client s args =>
    ⟨fun e he => ?_, fun history spec hhistory hspec h hp => ?_⟩⟩
  · rw [compile_of_error he, compile_of_error he]
  · rw [compile_of_ok hspec, compile_of_ok hspec]
    exact h.publishLogged
  · rw [generate_of_error he, generate_of_error he]
  · exact generate_of_blocked hhistory hspec h hp

section Demo

/-! A directory stands where the log should be written. -/

def demoConfig : Config :=
  { outputDir := "out", publicBaseUrl := "http://localhost", logDir := some "l" }

def demoOccasion : Occasion := ⟨"today", "0a1b2c3d"⟩

def pageSpec : Spec where
  title := "Demo"
  summary := ""
  keyScreens := [{ name := "Home", goal := "", components := [{ kind := .hero }] }]

def pageArgs : CompileArgs := ⟨⟨"spec.json"⟩, "ann"⟩

def blockedDisk (text : String) : Disk where
  entries := [(["spec.json"], .file text), (["l", "logs", "generation.jsonl"], .dir),
    (["l", "logs"], .dir), (["l"], .dir)]

def blockedJournal : Log.Journal := ⟨⟨"l/logs/generation.jsonl"⟩⟩

theorem ofConfig_demo : Store.ofConfig demoConfig = Store.demoStore := rfl

theorem journalFor_demo (text : String) :
    journalFor demoConfig (blockedDisk text) = (some blockedJournal, blockedDisk text) := rfl

theorem read_demo (text : String) : (blockedDisk text).read ⟨"spec.json"⟩ = .ok text := rfl

theorem valid_page : pageSpec.validate = .ok () := rfl

theorem decode_page : Spec.decode pageSpec.indented = .ok pageSpec := by
  have hordered : pageSpec.Ordered := by
    refine ⟨fun x hx c hc => ?_, nofun⟩
    rw [List.mem_singleton.mp hx] at hc
    rw [List.mem_singleton.mp hc]
    nofun
  exact (Spec.recovers hordered nofun).decode.1 (by decide)

theorem validSpec_demo : validSpec (blockedDisk pageSpec.indented) pageArgs.spec = .ok pageSpec :=
  validSpec_of_decode (read_demo _) decode_page valid_page

theorem emptyRoot_blocked (text : String) : Store.demoStore.EmptyRoot (blockedDisk text) where
  empty k hk := by
    cases k with
    | nil => exact absurd rfl hk
    | cons name rest => rfl
  way := .inr (Store.direct_of_not_parent (by decide) _)

theorem not_works_published (text : String) (spec : Spec) :
    ¬ blockedJournal.Works
      (publishedDisk demoOccasion demoConfig (blockedDisk text) "ann" spec) := by
  have hconfined : Store.demoStore.Confined "ann" (blockedDisk text)
      (publishedDisk demoOccasion demoConfig (blockedDisk text) "ann" spec) :=
    ((emptyRoot_blocked text).consistent.tells "ann" (by decide)).publish_confined (by decide)
      Store.isSlug_demo "today" spec
  generalize publishedDisk demoOccasion demoConfig (blockedDisk text) "ann" spec = d at hconfined
  intro hworks
  obtain ⟨l, hlocate, hfree⟩ := Log.Journal.works_iff.mp hworks
  have hname : Path.IsName "generation.jsonl" := ⟨by decide, by decide, by decide, by decide⟩
  have hfile : blockedJournal.file = Path.join ⟨"l/logs"⟩ "generation.jsonl" := by decide
  rw [hfile, Files.Disk.locate_join hname, Files.Disk.site_congr hconfined.home] at hlocate
  obtain ⟨-, -, rfl⟩ := hlocate
  have hheld : ¬ Store.demoStore.Held (blockedDisk text) "ann"
      ((blockedDisk text).site ⟨"l/logs"⟩ ++ ["generation.jsonl"]) := by
    rintro (heq | ⟨slug, k, -, heq⟩)
    · exact absurd (List.cons.inj heq).1 (by decide)
    · exact absurd (List.cons.inj heq).1 (by decide)
  rcases hconfined.others _ hheld with hkept | ⟨-, -, hdir⟩
  · exact hfree hkept
  · exact hfree hdir

theorem not_works_blocked (text : String) : ¬ blockedJournal.Works (blockedDisk text) := by
  intro hworks
  obtain ⟨l, hlocate, hfree⟩ := Log.Journal.works_iff.mp hworks
  have hfile : (blockedDisk text).locate blockedJournal.file =
      .ok ["l", "logs", "generation.jsonl"] := rfl
  rw [hfile] at hlocate
  cases hlocate
  exact hfree rfl

theorem logBlocked_demo (text : String) (spec : Spec) :
    LogBlocked demoOccasion demoConfig (blockedDisk text) "ann" spec where
  apart := fun _ _ _ _ => rfl
  before := by
    rintro j ⟨⟩
    exact not_works_blocked text
  after := by
    rintro j ⟨⟩
    exact not_works_published text spec

theorem replacing_blocked (text : String) (b : Bundle) {m : Manifest}
    (hpath : m.path = ⟨"out/ann/demo"⟩) :
    (Files.runActs (blockedDisk text) (Store.demoStore.replacing (Store.demoStore.root.join "ann")
      none b m)).2 = none := by
  simp only [Store.replacing, Store.storing, Bundle.files, List.map_cons, List.map_nil, hpath,
    Store.join_demo]
  rfl

theorem publish_blocked (text : String) : ∃ b,
    (Store.demoStore.publish (blockedDisk text) demoOccasion.spare demoOccasion.time pageArgs.owner
      pageSpec).1 = .ok b := by
  rw [demoOccasion, pageArgs]
  have hpath : (Store.demoStore.manifestFor "0a1b2c3d" "today" "ann" pageSpec).path =
      ⟨"out/ann/demo"⟩ := Store.path_demo (by decide)
  have hnone : Disk.entry? (blockedDisk text) (Store.demoStore.place (blockedDisk text) "ann"
      [Store.manifestName]) = none := rfl
  rw [Store.publish_of_none (by decide) hnone, Store.finish_fst, replacing_blocked text _ hpath]
  exact ⟨_, rfl⟩

theorem compile_fails_after_publishing :
    let d := blockedDisk pageSpec.indented
    (∃ b, (compile demoOccasion (unlogged demoConfig) d pageArgs).1 = .ok b) ∧
      ∃ f, compile demoOccasion demoConfig d pageArgs =
        (.error (.log (.noFile f)), (compile demoOccasion (unlogged demoConfig) d pageArgs).2) := by
  obtain ⟨b, hpublish⟩ := publish_blocked pageSpec.indented
  obtain ⟨f, hcompile⟩ := compile_of_not_works validSpec_demo (journalFor_demo _)
    (not_works_published pageSpec.indented pageSpec)
  have hunlogged := compile_unlogged validSpec_demo demoOccasion demoConfig
  rw [ofConfig_demo] at hunlogged
  dsimp only
  simp only [hcompile, hunlogged, hpublish, Except.mapError]
  exact ⟨⟨b, rfl⟩, f, rfl⟩

theorem commands_unlogged_demo :
    let d := blockedDisk pageSpec.indented
    let args : GenerateArgs := ⟨{ title := "Shop" }, none, none, "ann"⟩
    (∃ f, (compile demoOccasion demoConfig d pageArgs).1 = .error (.log (.noFile f))) ∧
      ∃ f, (generate demoOccasion demoConfig (none : Option (Chat.Client Unit)) () d args).1 =
        .error (.log (.noFile f)) := by
  obtain ⟨hcompile, hgenerate⟩ :=
    commands_unlogged demoOccasion demoConfig (blockedDisk pageSpec.indented)
  obtain ⟨-, hcompile⟩ := hcompile pageArgs
  obtain ⟨-, hgenerate⟩ := hgenerate (none : Option (Chat.Client Unit)) ()
    ⟨{ title := "Shop" }, none, none, "ann"⟩
  obtain ⟨hmasked, -⟩ := hcompile pageSpec validSpec_demo (logBlocked_demo _ _)
  obtain ⟨hmasked', -⟩ := hgenerate [] _ rfl rfl (logBlocked_demo _ _) fun _ _ => rfl
  rw [journalFor_demo] at hmasked hmasked'
  exact ⟨hmasked.exists_fault, hmasked'.exists_fault⟩

end Demo

end CommandLine

end Mockup
