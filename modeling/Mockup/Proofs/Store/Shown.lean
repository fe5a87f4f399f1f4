import Mockup.Proofs.Store.Run

/-! What the store shows after a run. The manifest of an owner is there as long as something is
published, and the directory of the owner has the bundle of the manifest and no other. -/

namespace Mockup.Store

open Files Path Disk

variable {s : Store} {d d₀ : Disk} {owner : String} {m : Manifest} {x : Entry} {k : Location}

/-- The disk shows a manifest of the owner with its bundle. -/
structure Shows (s : Store) (d : Disk) (owner : String) (m : Manifest) : Prop where
  loads : s.loadManifest d owner = .ok (some m)
  path : m.path = (s.root.join owner).join m.slug
  publicUrl : m.publicUrl = "/".intercalate [s.publicBase, owner, m.slug, "index.html"]
  slug : (Bundle.compile m.slug m.spec).slug = m.slug
  /-- The directory at the path holds the files of the bundle and nothing else. -/
  bundle : ∃ l, d.locate m.path = .ok l ∧ d.entry? l = some .dir ∧ ∀ k x, k ≠ [] →
    (d.entry? (l ++ k) = some x ↔
      (k = ["index.html"] ∧ x = .file (Bundle.compile m.slug m.spec).markup) ∨
      (k = ["styles.css"] ∧ x = .file (Bundle.compile m.slug m.spec).stylesheet) ∨
      (k = ["app.js"] ∧ x = .file (Bundle.compile m.slug m.spec).script))
  /-- Beside the bundle there is only the manifest. -/
  only : ∃ l, d.locate (s.root.join owner) = .ok l ∧ ∀ k x, d.entry? (l ++ k) = some x →
    k = [] ∨ k = ["manifest.json"] ∨ [m.slug] <+: k
  reads : IsAt d m.path (Bundle.compile m.slug m.spec)

theorem layout_bundle_iff (hk : k ≠ []) :
    layout m (m.slug :: k) = some x ↔
      (k = ["index.html"] ∧ x = .file (Bundle.compile m.slug m.spec).markup) ∨
      (k = ["styles.css"] ∧ x = .file (Bundle.compile m.slug m.spec).stylesheet) ∨
      (k = ["app.js"] ∧ x = .file (Bundle.compile m.slug m.spec).script) := by
  have hfiles : (∃ f ∈ (Bundle.compile m.slug m.spec).files, k = [f.1] ∧ x = .file f.2) ↔
      (k = ["index.html"] ∧ x = .file (Bundle.compile m.slug m.spec).markup) ∨
      (k = ["styles.css"] ∧ x = .file (Bundle.compile m.slug m.spec).stylesheet) ∨
      (k = ["app.js"] ∧ x = .file (Bundle.compile m.slug m.spec).script) := by
    simp only [mem_files_iff, or_and_right, exists_or, exists_eq_left]
  rw [← hfiles]
  obtain ⟨file, rest, rfl⟩ := List.exists_cons_of_ne_nil hk
  by_cases hfile : rest = [] ∧ file ∈ fileNames
  · obtain ⟨rfl, hmem⟩ := hfile
    rw [← map_fst_files (Bundle.compile m.slug m.spec)] at hmem
    obtain ⟨f, hf, rfl⟩ := List.mem_map.mp hmem
    have hlayout : layout m [m.slug, f.1] = some (.file f.2) := by
      simp [layout, lookup_files_of_mem hf]
    rw [hlayout]
    constructor
    · intro hx
      exact ⟨f, hf, rfl, (Option.some.inj hx).symm⟩
    · rintro ⟨g, hg, hname, rfl⟩
      -- the names of the files differ, so the file is the one found under the name
      have htext := lookup_files_of_mem hg
      rw [← (List.cons.inj hname).1, lookup_files_of_mem hf] at htext
      rw [Option.some.inj htext]
  · rw [layout_eq_none_of_file fun hrest hmem => hfile ⟨hrest, hmem⟩]
    constructor
    · intro hnone
      cases hnone
    · rintro ⟨f, hf, hname, -⟩
      obtain ⟨rfl, rfl⟩ := List.cons.inj hname
      exact absurd ⟨rfl, map_fst_files _ ▸ List.mem_map_of_mem hf⟩ hfile

theorem eq_of_layout (h : layout m k = some x) : k = [] ∨ k = [manifestName] ∨ [m.slug] <+: k := by
  rcases k with _ | ⟨name, rest⟩
  · exact .inl rfl
  · by_cases hmanifest : name :: rest = [manifestName]
    · exact .inr (.inl hmanifest)
    · by_cases hname : name = m.slug
      · subst hname
        exact .inr (.inr (List.prefix_append [m.slug] rest))
      · rw [layout_eq_none hmanifest hname] at h
        cases h

theorem Holds.shows {published : String → Option Manifest} (h : s.Holds d published)
    (hm : published owner = some m) : s.Shows d owner m := by
  have hgenuine := h.genuine owner m hm
  have howner := hgenuine.isOwner
  have hopen := h.isOpen owner m hm
  have hpath := hopen
  rw [hgenuine.path] at hpath
  obtain ⟨hownerDir, hslug, hdir⟩ := (isOpen_join hgenuine.isSlug.isName).mp hpath
  obtain ⟨hroot, hshort, -⟩ := (isOpen_join (isName_of_isOwner howner)).mp hownerDir
  have hentries (k : Location) : d.entry? (s.place d owner k) = layout m k := by
    rw [h.entries owner howner, hm, Option.bind_some]
  refine ⟨?_, hgenuine.path, hgenuine.publicUrl, hgenuine.slug, ?_, ?_,
    isAt_of_files fun f hf => ?_⟩
  · rw [h.loadManifest_eq howner, hm]
  · refine ⟨s.place d owner [m.slug], ?_, ?_, fun k x hk => ?_⟩
    · rw [hgenuine.path, ← site_owner howner]
      exact (locate_join hgenuine.isSlug.isName).mpr ⟨hownerDir, hslug, rfl⟩
    · rw [← site_owner howner, hdir]
    · rw [place_append, hentries]
      exact layout_bundle_iff hk
  · refine ⟨s.place d owner [], ?_, fun k x hk => ?_⟩
    · exact (locate_join (isName_of_isOwner howner)).mpr ⟨hroot, hshort, rfl⟩
    · rw [place_append, hentries] at hk
      exact eq_of_layout hk
  · exact read_join (isName_of_mem_files hf) hopen (not_isTooLong_of_mem_files hf)
      (h.file_of_mem hm hf)

/-- After every run from an empty root, a valid owner has a manifest if something was published
since the last deletion, and what was last published is shown. -/
theorem shows_lastPublished {ops : List Op} (hroot : s.EmptyRoot d₀) (hrun : s.Run d₀ ops d)
    (howner : isOwner owner = true) :
    d.has ((s.root.join owner).join "manifest.json") = (lastPublished owner ops).isSome ∧
      ∀ spec, lastPublished owner ops = some spec →
        ∃ m, m.spec.same spec = true ∧ s.Shows d owner m := by
  obtain ⟨-, hholds⟩ := hrun.holds hroot
  have hrel := s.rel_lastPublished howner ops
  have hhas : d.has ((s.root.join owner).join "manifest.json") =
      (s.published ops owner).isSome := hholds.has_manifest howner
  generalize hlast : lastPublished owner ops = last at hrel
  generalize hnow : s.published ops owner = now at hrel hhas
  rw [hhas]
  cases hrel with
  | none => exact ⟨rfl, nofun⟩
  | @some spec m hsame =>
    refine ⟨rfl, fun spec' hspec => ?_⟩
    obtain rfl := Option.some.inj hspec
    exact ⟨m, hsame, hholds.shows hnow⟩

section Demo

/-! One specification is published on an empty disk. -/

def demoStore : Store := ⟨⟨"out"⟩, "http://localhost"⟩

def demoSpec : Spec := { title := "Demo", summary := "", keyScreens := [] }

def demoOp : Op := .publish "0a1b2c3d" "today" "ann" demoSpec

def demoManifest : Manifest :=
  ⟨"demo", "http://localhost/ann/demo/index.html", ⟨"out/ann/demo"⟩, "today", demoSpec⟩

theorem isSlug_demo : Slug.IsSlug "0a1b2c3d" := ⟨by decide, List.all_eq_true.mp (by decide)⟩

theorem join_demo :
    demoStore.root.join "ann" = ⟨"out/ann"⟩ ∧
      Path.join ⟨"out/ann"⟩ manifestName = ⟨"out/ann/manifest.json"⟩ ∧
      Path.join ⟨"out/ann"⟩ "demo" = ⟨"out/ann/demo"⟩ ∧
      Path.join ⟨"out/ann/demo"⟩ Bundle.markupFile = ⟨"out/ann/demo/index.html"⟩ ∧
      Path.join ⟨"out/ann/demo"⟩ Bundle.stylesheetFile = ⟨"out/ann/demo/styles.css"⟩ ∧
      Path.join ⟨"out/ann/demo"⟩ Bundle.scriptFile = ⟨"out/ann/demo/app.js"⟩ := by
  decide

theorem manifestFor_demo :
    demoStore.manifestFor "0a1b2c3d" "today" "ann" demoSpec = demoManifest :=
  manifestFor_eq (by decide)

theorem sound_demo : demoOp.Sound demoStore := by
  refine ⟨isSlug_demo, ?_⟩
  rw [manifestFor_demo]
  refine Manifest.legible_of_read ?_
  rfl

theorem emptyRoot_demo : demoStore.EmptyRoot {} where
  empty k _ := by cases k <;> rfl
  way := .inr (direct_of_not_parent (by decide) _)

def demoDisk (b : Bundle) (m : Manifest) : Disk where
  entries := [
    (["out", "ann", "manifest.json"], .file m.indented),
    (["out", "ann", "demo", "app.js"], .file b.script),
    (["out", "ann", "demo", "styles.css"], .file b.stylesheet),
    (["out", "ann", "demo", "index.html"], .file b.markup),
    (["out", "ann", "demo"], .dir), (["out", "ann"], .dir), (["out"], .dir)]

theorem replacing_demo (b : Bundle) {m : Manifest} (hpath : m.path = ⟨"out/ann/demo"⟩) :
    runActs {} (demoStore.replacing (demoStore.root.join "ann") none b m) =
      (demoDisk b m, none) := by
  simp only [replacing, storing, Bundle.files, List.map_cons, List.map_nil, hpath, join_demo]
  rfl

/-! Another owner publishes the same, the first one something else, and the bundle of the other one
is deleted. -/

def bobOp : Op := .publish "0a1b2c3d" "today" "bob" demoSpec

def bobManifest : Manifest :=
  ⟨"demo", "http://localhost/bob/demo/index.html", ⟨"out/bob/demo"⟩, "today", demoSpec⟩

def otherSpec : Spec := { demoSpec with title := "Other" }

def otherOp : Op := .publish "0a1b2c3d" "later" "ann" otherSpec

def otherManifest : Manifest :=
  ⟨"other", "http://localhost/ann/other/index.html", ⟨"out/ann/other"⟩, "later", otherSpec⟩

theorem manifestFor_bob :
    demoStore.manifestFor "0a1b2c3d" "today" "bob" demoSpec = bobManifest :=
  manifestFor_eq (by decide)

theorem manifestFor_other :
    demoStore.manifestFor "0a1b2c3d" "later" "ann" otherSpec = otherManifest :=
  manifestFor_eq (by decide)

theorem sound_bob : bobOp.Sound demoStore := by
  refine ⟨isSlug_demo, ?_⟩
  rw [manifestFor_bob]
  refine Manifest.legible_of_read ?_
  rfl

theorem sound_other : otherOp.Sound demoStore := by
  refine ⟨isSlug_demo, ?_⟩
  rw [manifestFor_other]
  refine Manifest.legible_of_read ?_
  rfl

def bothDisk (b b' : Bundle) (m m' : Manifest) : Disk where
  entries := [
    (["out", "bob", "manifest.json"], .file m'.indented),
    (["out", "bob", "demo", "app.js"], .file b'.script),
    (["out", "bob", "demo", "styles.css"], .file b'.stylesheet),
    (["out", "bob", "demo", "index.html"], .file b'.markup),
    (["out", "bob", "demo"], .dir), (["out", "bob"], .dir)] ++ (demoDisk b m).entries

theorem join_bob :
    demoStore.root.join "bob" = ⟨"out/bob"⟩ ∧
      Path.join ⟨"out/bob"⟩ manifestName = ⟨"out/bob/manifest.json"⟩ := by decide

theorem replacing_bob (b b' : Bundle) (m m' : Manifest)
    (hpath : m'.path = ⟨"out/bob/demo"⟩) :
    runActs (demoDisk b m) (demoStore.replacing (demoStore.root.join "bob") none b' m') =
      (bothDisk b b' m m', none) := by
  simp only [replacing, storing, Bundle.files, List.map_cons, List.map_nil, hpath, join_bob]
  rfl

theorem replacing_other (b b' b'' : Bundle) (m m' m'' : Manifest)
    (hpath : m.path = ⟨"out/ann/demo"⟩) (hpath'' : m''.path = ⟨"out/ann/other"⟩) :
    (runActs (bothDisk b b' m m')
      (demoStore.replacing (demoStore.root.join "ann") (some m) b'' m'')).2 = none := by
  have hstale : outdated (some m) ⟨"out/ann/other"⟩ = some ⟨"out/ann/demo"⟩ := by
    rw [outdated, Option.filter_some, hpath, if_pos (by decide), Option.map_some, hpath]
  have hinside : demoStore.root.isInside ⟨"out/ann/demo"⟩ = true := by decide
  simp only [replacing, storing, Bundle.files, List.map_cons, List.map_nil, hpath'', join_demo,
    hstale, Option.map_some, deleting, hinside, if_true]
  rfl

theorem works_deleteOwner {published : String → Option Manifest} (h : s.Holds d published)
    (howner : isOwner owner = true) : (Op.deleteOwner owner).Works s d := by
  intro e he
  rw [h.deleteOwner_eq howner] at he
  split at he <;> cases he

theorem run_demo : ∃ d, demoStore.Run {} [demoOp, bobOp, otherOp, .deleteOwner "bob"] d := by
  have hann : isOwner "ann" = true := by decide
  have hbob : isOwner "bob" = true := by decide
  have hfirst : demoStore.Run {} [demoOp] _ :=
    Run.start.publish emptyRoot_demo hann sound_demo manifestFor_demo rfl (replacing_demo _ rfl)
  have hsecond : demoStore.Run {} [demoOp, bobOp] _ :=
    hfirst.publish emptyRoot_demo hbob sound_bob manifestFor_bob rfl
      (replacing_bob _ _ demoManifest bobManifest rfl)
  have hbefore : demoStore.published [demoOp, bobOp] "ann" = some demoManifest :=
    congrArg some manifestFor_demo
  have hnew : ((demoStore.published [demoOp, bobOp] "ann").filter fun m =>
      m.spec.same otherSpec) = none := by
    rw [hbefore]
    decide
  have hacts := replacing_other (Bundle.compile demoManifest.slug demoManifest.spec)
    (Bundle.compile bobManifest.slug bobManifest.spec)
    (Bundle.compile otherManifest.slug otherManifest.spec) demoManifest bobManifest otherManifest
    rfl rfl
  rw [← hbefore] at hacts
  have hthird : demoStore.Run {} [demoOp, bobOp, otherOp] _ :=
    hsecond.publish emptyRoot_demo hann sound_other manifestFor_other hnew (Prod.ext rfl hacts)
  have hworks := works_deleteOwner (hthird.holds emptyRoot_demo).2 hbob
  exact ⟨_, .call (.deleteOwner "bob") hthird trivial hworks⟩

theorem shows_lastPublished_demo :
    ∃ d, demoStore.Run {} [demoOp, bobOp, otherOp, .deleteOwner "bob"] d ∧
      d.has ((demoStore.root.join "ann").join "manifest.json") = true ∧
      (∃ m, m.spec.same otherSpec = true ∧ demoStore.Shows d "ann" m) ∧
      d.has ((demoStore.root.join "bob").join "manifest.json") = false := by
  obtain ⟨d, hrun⟩ := run_demo
  have howner : isOwner "ann" = true := by decide
  have hother : isOwner "bob" = true := by decide
  obtain ⟨hann, hshows⟩ := shows_lastPublished emptyRoot_demo hrun howner
  obtain ⟨hbob, -⟩ := shows_lastPublished emptyRoot_demo hrun hother
  exact ⟨d, hrun, hann, hshows otherSpec rfl, hbob⟩

end Demo

end Mockup.Store
