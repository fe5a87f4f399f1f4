import Mockup.Proofs.Store.Legible
import Mockup.Proofs.Store.Shown
import Mockup.Proofs.Store.Stands

/-! What is at the path that publishing returns. A bundle that was written is there as it was
compiled. One that is reused is there as well, unless a publication with its slug wrote a file after
it and failed: reuse looks at the manifest, which a failed publication leaves as it was, and not at
the files, which it may have overwritten. -/

namespace Mockup

theorem Bundle.files_compile (spare spare' : String) (s : Spec) :
    (compile spare s).files = (compile spare' s).files := by
  simp only [compile, files]

namespace Store

open Files Path Disk

variable {s : Store} {d d' d₀ : Disk} {owner spare time : String} {spec : Spec} {l : Ledger}
  {b : PublishedBundle} {previous : Option Manifest}

theorem Tells.reads_of_publish (h : s.Tells owner d l) (hdirect : s.Direct d)
    (hspare : Slug.IsSlug spare) (hpublish : s.publish d spare time owner spec = (.ok b, d'))
    (hreused : b.reused = true →
      l.intact = true ∧ spec.Ordered ∧ ∀ m ∈ l.manifest, m.Legible ∧ m.spec.ZeroFree) :
    IsAt d' b.path (Bundle.compile spare spec) := by
  refine isAt_of_files ?_
  obtain ⟨howner, previous, hload⟩ := load_of_publish hpublish
  rcases h.stands_or_installed hdirect hspare hload hpublish with
    ⟨m, rfl, hstands, rfl, rfl⟩ | ⟨m, -, hplaced, hinstalled, rfl⟩
  · obtain ⟨hintact, hspec, hmanifest⟩ := hreused rfl
    obtain ⟨m', hm', hparse⟩ := h.parse_of_load howner hload rfl
    obtain ⟨hlegible, hzero⟩ := hmanifest m' hm'
    -- what is read from the manifest is what was written
    obtain rfl : m' = m := by
      rw [hlegible.parse_indented] at hparse
      exact Except.ok.inj hparse
    have hequal : m'.spec = spec :=
      Spec.eq_of_same (Manifest.ordered_of_parse hparse) hspec hzero hstands.same
    rw [← hequal, Bundle.files_compile spare m'.slug]
    exact hstands.placed.reads hstands.isOpen (h.bundle hintact m' hm' hstands.markup)
  · exact hplaced.reads hinstalled.isOpen hinstalled.files

/-- After any calls on an empty root, of which some may have failed half-way, a publication that
goes through returns the path of the bundle it was to publish, if it wrote the bundle, and also if
it reused one and no publication with the slug wrote a file and failed since that one was written.
The reuse test takes the two zeros for one, and a double may be read as another one than was
written, so the manifest must have no zero among its doubles and come back from its text. -/
theorem reads_of_publish_after {calls : List Call} (hroot : s.EmptyRoot d₀)
    (hcalls : ∀ c ∈ calls, c.Sound) (hspare : Slug.IsSlug spare)
    (hpublish : s.publish (s.after d₀ calls) spare time owner spec = (.ok b, d'))
    (hreused : b.reused = true → (s.ledger owner d₀ {} calls).intact = true ∧ spec.Ordered ∧
      ∀ m ∈ (s.ledger owner d₀ {} calls).manifest, m.Legible ∧ m.spec.ZeroFree) :
    IsAt d' b.path (Bundle.compile spare spec) := by
  obtain ⟨hconsistent, -⟩ := hroot.consistent.after hcalls
  have htells := hconsistent.tells owner (load_of_publish hpublish).1
  exact htells.reads_of_publish hconsistent.direct hspare hpublish hreused

section Demo

/-! One specification is published, and another one with the same slug fails before or after its
first file. -/

def demoCall : Call := .publish "0a1b2c3d" "today" "ann" demoSpec

def demoBundle : Bundle := Bundle.compile "0a1b2c3d" demoSpec

def demoTwin : Spec := { demoSpec with title := "demo" }

def demoStumble : Call := .interrupted 1 "0a1b2c3d" "today" "ann" demoTwin

def demoCut : Call := .interrupted 2 "0a1b2c3d" "today" "ann" demoTwin

theorem plain_demo : demoSpec.Plain := ⟨⟨nofun, nofun⟩, nofun⟩

theorem parse_demo : Manifest.parse demoManifest.indented = .ok demoManifest :=
  Manifest.parse_indented plain_demo (by decide)

theorem load_demo {text : String} {m : Manifest}
    (hhas : d.has ⟨"out/ann/manifest.json"⟩ = true)
    (hread : d.read ⟨"out/ann/manifest.json"⟩ = .ok text) (hparse : Manifest.parse text = .ok m) :
    demoStore.loadManifest d "ann" = .ok (some m) := by
  have howner : demoStore.ownerDir "ann" = .ok (demoStore.root.join "ann") :=
    ownerDir_eq demoStore (by decide)
  simp only [loadManifest, howner, manifestIn, join_demo, hhas, hread, hparse, if_true]

theorem load_demo_none (hhas : d.has ⟨"out/ann/manifest.json"⟩ = false) :
    demoStore.loadManifest d "ann" = .ok none := by
  have howner : demoStore.ownerDir "ann" = .ok (demoStore.root.join "ann") :=
    ownerDir_eq demoStore (by decide)
  simp only [loadManifest, howner, manifestIn, join_demo, hhas, Bool.false_eq_true, if_false]

theorem publish_demo_new (hhas : d.has ⟨"out/ann/manifest.json"⟩ = false)
    (hrun : ∀ (b : Bundle) {m : Manifest}, m.path = ⟨"out/ann/demo"⟩ →
      runActs d (demoStore.replacing (demoStore.root.join "ann") none b m) =
        (demoDisk b m, none)) :
    demoStore.publish d "0a1b2c3d" "today" "ann" demoSpec =
      (.ok ⟨"demo", "http://localhost/ann/demo/index.html", ⟨"out/ann/demo"⟩, false⟩,
        demoDisk demoBundle demoManifest) := by
  rcases publish_cases (by decide) (load_demo_none hhas) "0a1b2c3d" "today" demoSpec with
    ⟨m, hm, -⟩ | ⟨-, hacts, hpublish⟩
  · cases hm
  · rw [hpublish, hacts, manifestFor_demo, hrun _ rfl]
    rfl

theorem publish_demo :
    demoStore.publish {} "0a1b2c3d" "today" "ann" demoSpec =
      (.ok ⟨"demo", "http://localhost/ann/demo/index.html", ⟨"out/ann/demo"⟩, false⟩,
        demoDisk demoBundle demoManifest) :=
  publish_demo_new rfl replacing_demo

theorem publish_demo_again (hhas : d.has ⟨"out/ann/manifest.json"⟩ = true)
    (hread : d.read ⟨"out/ann/manifest.json"⟩ = .ok demoManifest.indented)
    (hmarkup : d.has ⟨"out/ann/demo/index.html"⟩ = true) (spare time : String) :
    demoStore.publish d spare time "ann" demoSpec =
      (.ok ⟨"demo", "http://localhost/ann/demo/index.html", ⟨"out/ann/demo"⟩, true⟩, d) := by
  have howner : isOwner "ann" = true := by decide
  obtain ⟨-, -, -, hfile, -, -⟩ := join_demo
  have hpath : demoManifest.path.join Bundle.markupFile = ⟨"out/ann/demo/index.html"⟩ := hfile
  have hcurrent : isCurrent d demoSpec demoManifest = true := by
    have hsame : demoManifest.spec.same demoSpec = true := demoSpec.same_refl
    rw [isCurrent, hsame, hpath, hmarkup, Bool.and_self]
  rcases publish_cases howner (load_demo hhas hread parse_demo) spare time demoSpec with
    ⟨m, hm, -, -, hpublish⟩ | ⟨hnone, -⟩
  · cases hm
    exact hpublish
  · rw [Option.filter_some, if_pos hcurrent] at hnone
    cases hnone

theorem after_demo : demoStore.after {} [demoCall] = demoDisk demoBundle demoManifest := by
  rw [after, List.foldl_cons, List.foldl_nil, demoCall, Call.run, publish_demo]

theorem path_demo (h : Slug.ofTitle "0a1b2c3d" spec.complete.title = "demo") :
    (demoStore.manifestFor "0a1b2c3d" "today" "ann" spec).path = ⟨"out/ann/demo"⟩ := by
  simp only [manifestFor, Bundle.slug_compile, h, join_demo]

theorem path_demoTwin :
    (demoStore.manifestFor "0a1b2c3d" "today" "ann" demoTwin).path = ⟨"out/ann/demo"⟩ :=
  path_demo (by decide)

theorem acts_demoTwin_of_load (hload : demoStore.loadManifest d "ann" = .ok previous)
    (hother : ∀ m ∈ previous, m.spec.same demoTwin = false) :
    demoStore.acts d "0a1b2c3d" "today" "ann" demoTwin =
      demoStore.replacing (demoStore.root.join "ann") previous
        (Bundle.compile "0a1b2c3d" demoTwin)
        (demoStore.manifestFor "0a1b2c3d" "today" "ann" demoTwin) := by
  rcases publish_cases (by decide) hload "0a1b2c3d" "today" demoTwin with
    ⟨m, hm, hcurrent, -, -⟩ | ⟨-, hacts, -⟩
  · rw [isCurrent, hother m hm, Bool.false_and] at hcurrent
    cases hcurrent
  · exact hacts

theorem acts_demoTwin (b : Bundle) :
    demoStore.acts (demoDisk b demoManifest) "0a1b2c3d" "today" "ann" demoTwin =
      demoStore.replacing (demoStore.root.join "ann") (some demoManifest)
        (Bundle.compile "0a1b2c3d" demoTwin)
        (demoStore.manifestFor "0a1b2c3d" "today" "ann" demoTwin) := by
  refine acts_demoTwin_of_load (load_demo rfl rfl parse_demo) ?_
  rintro m ⟨⟩
  decide

theorem interrupted_demo (b : Bundle) :
    demoStore.interrupted (demoDisk b demoManifest) 2 "0a1b2c3d" "today" "ann" demoTwin =
      (demoDisk b demoManifest).set ["out", "ann", "demo", "index.html"]
        (.file (Bundle.compile "0a1b2c3d" demoTwin).markup) := by
  have hpath := path_demoTwin
  obtain ⟨-, -, -, hfile, -, -⟩ := join_demo
  rw [interrupted, acts_demoTwin]
  generalize demoStore.manifestFor "0a1b2c3d" "today" "ann" demoTwin = m at hpath
  generalize Bundle.compile "0a1b2c3d" demoTwin = b'
  rw [replacing_eq, List.dropLast_concat, placing, storing, Bundle.files, hpath, List.map_cons,
    hfile]
  rfl

theorem stumble_demo (b : Bundle) (l : Ledger) :
    demoStumble.run demoStore (demoDisk b demoManifest) = demoDisk b demoManifest ∧
      demoStumble.note demoStore (demoDisk b demoManifest) l = l := by
  have hpath := path_demoTwin
  rw [demoStumble, Call.run, Call.note, interrupted, acts_demoTwin]
  generalize demoStore.manifestFor "0a1b2c3d" "today" "ann" demoTwin = m at hpath
  generalize Bundle.compile "0a1b2c3d" demoTwin = b'
  rw [replacing_eq, List.dropLast_concat, placing, storing, hpath]
  refine ⟨rfl, ?_⟩
  have hwrote : writesFile (demoDisk b demoManifest)
      [.perform (.makeDirs ⟨"out/ann/demo"⟩) (.cannotCreate ⟨"out/ann/demo"⟩)] = false := rfl
  rw [List.cons_append, List.take_succ_cons, List.take_zero, hwrote, Ledger.spoiled,
    Bool.not_false, Bool.true_or, Bool.and_true]

def pageDisk (text : String) : Disk where
  entries := [
    (["out", "ann", "demo", "index.html"], .file text), (["out", "ann", "demo"], .dir),
    (["out", "ann"], .dir), (["out"], .dir)]

theorem cut_demo :
    demoCut.run demoStore {} = pageDisk (Bundle.compile "0a1b2c3d" demoTwin).markup ∧
      demoCut.note demoStore {} {} = {} := by
  have hpath := path_demoTwin
  obtain ⟨-, -, -, hfile, -, -⟩ := join_demo
  have hother : ∀ m ∈ (none : Option Manifest), m.spec.same demoTwin = false := by simp
  rw [demoCut, Call.run, Call.note, interrupted,
    acts_demoTwin_of_load (load_demo_none rfl) hother]
  generalize demoStore.manifestFor "0a1b2c3d" "today" "ann" demoTwin = m at hpath
  generalize Bundle.compile "0a1b2c3d" demoTwin = b'
  constructor
  · rw [replacing_eq, List.dropLast_concat, placing, storing, Bundle.files, hpath, List.map_cons,
      hfile]
    rfl
  · have hnone (wrote : Bool) : Ledger.spoiled {} wrote b'.slug = {} := by cases wrote <;> rfl
    exact hnone _

theorem replacing_page (text : String) (b : Bundle) {m : Manifest}
    (hpath : m.path = ⟨"out/ann/demo"⟩) :
    runActs (pageDisk text) (demoStore.replacing (demoStore.root.join "ann") none b m) =
      (demoDisk b m, none) := by
  simp only [replacing, storing, Bundle.files, List.map_cons, List.map_nil, hpath, join_demo]
  rfl

theorem publish_page (text : String) :
    demoStore.publish (pageDisk text) "0a1b2c3d" "today" "ann" demoSpec =
      (.ok ⟨"demo", "http://localhost/ann/demo/index.html", ⟨"out/ann/demo"⟩, false⟩,
        demoDisk demoBundle demoManifest) :=
  publish_demo_new rfl (replacing_page text)

theorem after_demo_failures :
    demoStore.after {} [demoCut, demoCall, demoStumble] = demoDisk demoBundle demoManifest := by
  have hcall (text : String) :
      demoCall.run demoStore (pageDisk text) = demoDisk demoBundle demoManifest := by
    rw [demoCall, Call.run, publish_page]
  rw [after, List.foldl_cons, List.foldl_cons, List.foldl_cons, List.foldl_nil, cut_demo.1, hcall,
    (stumble_demo demoBundle {}).1]

theorem ledger_demo :
    demoStore.ledger "ann" {} {} [demoCut, demoCall, demoStumble] = ⟨some demoManifest, true⟩ := by
  have hcall (text : String) : demoCall.run demoStore (pageDisk text) =
      demoDisk demoBundle demoManifest ∧
        demoCall.note demoStore (pageDisk text) {} = ⟨some demoManifest, true⟩ := by
    rw [demoCall, Call.run, Call.note, publish_page, manifestFor_demo]
    exact ⟨rfl, rfl⟩
  have htarget : demoCut.target = "ann" ∧ demoCall.target = "ann" ∧ demoStumble.target = "ann" :=
    ⟨rfl, rfl, rfl⟩
  rw [ledger, ledger, ledger, ledger, if_pos htarget.1, if_pos htarget.2.1, if_pos htarget.2.2,
    cut_demo.1, cut_demo.2, (hcall _).1, (hcall _).2, (stumble_demo _ _).2]

theorem reads_of_publish_after_failures :
    ∃ b d, demoStore.publish (demoStore.after {} [demoCut, demoCall, demoStumble]) "0a1b2c3d"
        "today" "ann" demoSpec = (.ok b, d) ∧ b.reused = true ∧ IsAt d b.path demoBundle := by
  have hpublish := publish_demo_again
    (d := demoStore.after {} [demoCut, demoCall, demoStumble])
    (by rw [after_demo_failures]; rfl) (by rw [after_demo_failures]; rfl)
    (by rw [after_demo_failures]; rfl) "0a1b2c3d" "today"
  refine ⟨_, _, hpublish, rfl, ?_⟩
  refine reads_of_publish_after emptyRoot_demo ?_ isSlug_demo hpublish fun _ => ?_
  · simp only [List.forall_mem_cons]
    exact ⟨isSlug_demo, isSlug_demo, isSlug_demo, List.forall_mem_nil _⟩
  · rw [ledger_demo]
    refine ⟨rfl, plain_demo.ordered, ?_⟩
    rintro m ⟨⟩
    exact ⟨⟨demoManifest, parse_demo, rfl⟩, plain_demo.realFree.zeroFree⟩

theorem markup_demoTwin : (Bundle.compile "0a1b2c3d" demoTwin).markup ≠ demoBundle.markup := by
  intro h
  have hchars := congrArg String.toList h
  simp only [Bundle.compile, demoBundle, Markup.render, String.toList_ofList] at hchars
  -- the first letter of the title
  have hletter := congrArg (fun cs => cs[139]?) hchars
  exact absurd hletter (by decide +kernel)

/-- A bundle is reused though its page has been overwritten. -/
theorem reused_overwritten :
    ∃ b d, demoStore.publish (demoStore.after {} [demoCall, demoCut]) "0a1b2c3d" "today" "ann"
        demoSpec = (.ok b, d) ∧ b.reused = true ∧
      d.read (b.path.join "index.html") ≠ .ok demoBundle.markup := by
  have hafter : demoStore.after {} [demoCall, demoCut] =
      (demoDisk demoBundle demoManifest).set ["out", "ann", "demo", "index.html"]
        (.file (Bundle.compile "0a1b2c3d" demoTwin).markup) := by
    rw [after, List.foldl_cons, List.foldl_cons, List.foldl_nil, demoCall, Call.run, publish_demo,
      demoCut, Call.run, interrupted_demo]
  have hother := markup_demoTwin
  rw [hafter]
  generalize (Bundle.compile "0a1b2c3d" demoTwin).markup = text at hother
  generalize hdisk : (demoDisk demoBundle demoManifest).set ["out", "ann", "demo", "index.html"]
    (.file text) = d
  have hpublish := publish_demo_again (d := d) (by rw [← hdisk]; rfl) (by rw [← hdisk]; rfl)
    (by rw [← hdisk]; rfl) "0a1b2c3d" "today"
  have hread : d.read ⟨"out/ann/demo/index.html"⟩ = .ok text := by
    rw [← hdisk]
    rfl
  obtain ⟨-, -, -, hfile, -, -⟩ := join_demo
  refine ⟨_, d, hpublish, rfl, ?_⟩
  rw [Bundle.markupFile] at hfile
  rw [hfile, hread]
  exact fun heq => hother (Except.ok.inj heq)

end Demo

end Store

end Mockup
