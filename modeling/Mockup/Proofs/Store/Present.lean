import Mockup.Proofs.Files.Inside
import Mockup.Proofs.Store.Reuse
import Mockup.Proofs.Store.Visited

/-! Which files are at the path that publishing returns. A bundle that was written is there as a
whole: what is removed after it is the directory of the bundle before, which lies inside the root
under other names. Of a bundle that is reused only the page was looked for. -/

namespace Mockup.Store

open Files Path Disk

variable {s : Store} {d d' d₁ d₂ : Disk} {owner spare time : String} {spec : Spec}
  {m : Manifest} {previous : Option Manifest} {bundle : Bundle} {b : PublishedBundle}
  {l k : Location} {p : Path}

theorem entry?_removeTree_of_ne_nil (hk : k ≠ []) (d : Disk) (l : Location) :
    Disk.entry? (d.removeTree l) k = if l <+: k then none else d.entry? k := by
  by_cases hl : l = []
  · subst hl
    rw [if_pos List.nil_prefix, entry?, if_neg hk, removeTree]
    simp
  · exact entry?_removeTree hl d k

theorem removed_of_discard {failure : Fault → StoreError}
    (h : (Act.perform (.discard p) failure).run d = (d', none)) :
    d' = d ∨ d.entry? (d.site p) = some .dir ∧ d' = d.removeTree (d.site p) := by
  have hrun := perform_run_eq_none h
  rw [Step.run] at hrun
  split at hrun
  · unfold removeDir at hrun
    split at hrun
    · cases hrun
    · next l hlocate =>
      obtain rfl := eq_site_of_locate hlocate
      split at hrun
      · next hdir =>
        split at hrun
        · cases hrun
        · exact .inr ⟨hdir, (Prod.mk.inj hrun).1.symm⟩
      · cases hrun
      · cases hrun
  · exact .inl (Prod.mk.inj hrun).1.symm

theorem removed_of_runActs {path : Path}
    (h : runActs d ((outdated previous path).map s.deleting).toList = (d', none)) :
    d' = d ∨ ∃ old, previous = some old ∧ old.path.same path = false ∧
      s.root.isInside old.path = true ∧ d.entry? (d.site old.path) = some .dir ∧
      d' = d.removeTree (d.site old.path) := by
  cases houtdated : outdated previous path with
  | none =>
    rw [houtdated] at h
    exact .inl (Prod.mk.inj h).1.symm
  | some p =>
    obtain ⟨old, hold, rfl⟩ := Option.map_eq_some_iff.mp houtdated
    obtain ⟨rfl, hsame⟩ := Option.filter_eq_some_iff.mp hold
    rw [houtdated, Option.map_some, Option.toList_some] at h
    obtain ⟨d₂, hdelete, hnil⟩ := runActs_cons_eq_none.mp h
    obtain rfl := (Prod.mk.inj hnil).1
    rw [deleting] at hdelete
    split at hdelete
    · next hinside =>
      rcases removed_of_discard hdelete with hkept | ⟨hdir, hremoved⟩
      · exact .inl hkept
      · exact .inr ⟨old, rfl, by simpa using hsame, hinside, hdir, hremoved⟩
    · cases hdelete

theorem prefix_dir_cases {slug : String} (h : l <+: s.place d owner [slug]) :
    l = s.place d owner [slug] ∨ l <+: s.place d owner [] := by
  have hdir : s.place d owner [slug] = s.place d owner [] ++ [slug] := (place_append [] [slug]).symm
  rwa [hdir, List.prefix_concat_iff, ← hdir] at h

theorem prefix_file_cases {slug name : String} (h : l <+: s.place d owner [slug, name]) :
    l = s.place d owner [slug, name] ∨ l = s.place d owner [slug] ∨ l <+: s.place d owner [] := by
  have hfile : s.place d owner [slug, name] = s.place d owner [slug] ++ [name] :=
    (place_append [slug] [name]).symm
  rw [hfile, List.prefix_concat_iff, ← hfile] at h
  exact h.imp_right prefix_dir_cases

structure Lies (s : Store) (owner : String) (m : Manifest) (bundle : Bundle) (d : Disk) :
    Prop where
  dir : d.entry? (s.place d owner [m.slug]) = some .dir
  files : ∀ f ∈ bundle.files, d.entry? (s.place d owner [m.slug, f.1]) = some (.file f.2)

theorem Stored.lies (h : Stored m.path bundle d d₁) (hm : s.Placed owner m) :
    s.Lies owner m bundle d₁ where
  dir := by
    have hopen := h.isOpen
    rw [hm.path, isOpen_join hm.isSlug.isName, site_owner hm.isOwner] at hopen
    exact hopen.2.2
  files := by
    intro f hf
    have hfile := h.files f hf
    rwa [hm.site, place_append, ← place_congr h.home] at hfile

variable {text : String} (hw : Written (s.root.join owner) [(manifestName, text)] d d')

include hw

theorem Written.entry?_place (howner : isOwner owner = true) (hk : k ≠ [manifestName]) :
    d'.entry? (s.place d owner k) = d.entry? (s.place d owner k) := by
  refine hw.others _ fun f hf => ?_
  rw [List.mem_singleton.mp hf, site_owner howner, Ne, place_inj]
  exact hk

theorem Lies.reads (h : s.Lies owner m bundle d) (hm : s.Placed owner m)
    (hshort : isTooLong m.slug = false) :
    ∀ f ∈ bundle.files, d'.read (m.path.join f.1) = .ok f.2 := by
  have hopen : d.IsOpen m.path := by
    rw [hm.path, isOpen_join hm.isSlug.isName, site_owner hm.isOwner]
    exact ⟨hw.isOpen (List.cons_ne_nil _ _), hshort, h.dir⟩
  refine hm.reads (hopen.mono hw.home fun k _ => hw.dirs k) fun f hf => ?_
  rw [place_congr hw.home, hw.entry?_place hm.isOwner (by simp), h.files f hf]

omit hw

theorem not_prefix_of_written (howner : isOwner owner = true)
    (hw : Written (s.root.join owner) [(manifestName, text)] (d.removeTree l) d') :
    ¬ l <+: s.place d owner [] := by
  intro hprefix
  have hopen := hw.isOpen (List.cons_ne_nil _ _)
  have hdir : Disk.entry? (d.removeTree l) (s.place d owner []) = some .dir :=
    ((isOpen_join (isName_of_isOwner howner)).mp hopen).2.2
  rw [entry?_removeTree_of_ne_nil (by simp [place]), if_pos hprefix] at hdir
  cases hdir

theorem Lies.removeTree (h : s.Lies owner m bundle d)
    (hl : d.entry? l = some .dir) (hother : l ≠ s.place d owner [m.slug])
    (howner : ¬ l <+: s.place d owner []) : s.Lies owner m bundle (d.removeTree l) := by
  have hentry (k : Location) : Disk.entry? (d.removeTree l) (s.place (d.removeTree l) owner k) =
      if l <+: s.place d owner k then none else d.entry? (s.place d owner k) :=
    entry?_removeTree_of_ne_nil (by simp [place]) d l
  refine ⟨?_, fun f hf => ?_⟩
  · rw [hentry, if_neg fun hprefix => (prefix_dir_cases hprefix).elim hother howner, h.dir]
  · rw [hentry, if_neg, h.files f hf]
    intro hprefix
    rcases prefix_file_cases hprefix with rfl | hprefix
    · rw [h.files f hf] at hl
      cases hl
    · exact hprefix.elim hother howner

theorem has_eq_false_of_removeTree (hm : s.Placed owner m)
    (hw : Written (s.root.join owner) [(manifestName, text)]
      (d.removeTree (s.place d owner [m.slug])) d') {name : String} (hname : name ∈ fileNames) :
    d'.has (m.path.join name) = false := by
  refine has_join_of_none (isName_of_mem_fileNames hname) ?_
  have hplace : s.place d' owner [m.slug, name] =
      s.place (d.removeTree (s.place d owner [m.slug])) owner [m.slug, name] := place_congr hw.home _
  have hhome (k : Location) :
      s.place (d.removeTree (s.place d owner [m.slug])) owner k = s.place d owner k := rfl
  rw [hm.site, place_append, List.singleton_append, hplace, hw.entry?_place hm.isOwner (by simp),
    hhome, entry?_removeTree_place]
  exact if_pos (List.prefix_append [m.slug] [name])

/-- The bundle before was named by another path, which leads to the new bundle all the same, and
nothing of that is left. -/
structure Lost (s : Store) (owner : String) (d d' : Disk) (p : Path) : Prop where
  emptyRoot : s.root.text = ""
  renamed : ∃ old, s.loadManifest d owner = .ok (some old) ∧ old.path.same p = false ∧
    d.site old.path = d.site p
  gone : ∀ name ∈ ["index.html", "styles.css", "app.js"], d'.has (p.join name) = false

theorem reads_or_lost (hm : s.Placed owner m) (hload : s.loadManifest d owner = .ok previous)
    (hrun : runActs d (s.replacing (s.root.join owner) previous bundle m) = (d', none)) :
    IsAt d' m.path bundle ∨ s.Lost owner d d' m.path := by
  obtain ⟨d₂, hrun, hwrites⟩ := runActs_append_eq_none.mp hrun
  obtain ⟨d₁, hstore, hclear⟩ := runActs_append_eq_none.mp hrun
  have hstored : Stored m.path bundle d d₁ := by
    rw [hm.path] at hstore ⊢
    exact stored_of_runActs hm.isSlug.isName hstore
  have hw : Written (s.root.join owner) [(manifestName, m.indented)] d₂ d' :=
    written_of_runActs (by simp [isName_manifestName]) (by simp) hwrites
  have hlies := hstored.lies hm
  have hshort : isTooLong m.slug = false := by
    have hopen := hstored.isOpen
    rw [hm.path, isOpen_join hm.isSlug.isName] at hopen
    exact hopen.2.1
  rcases removed_of_runActs hclear with rfl | ⟨old, rfl, hsame, hinside, hold, rfl⟩
  · exact .inl (isAt_of_files (hlies.reads hw hm hshort))
  · have howner := not_prefix_of_written hm.isOwner hw
    by_cases hslug : d₁.site old.path = s.place d₁ owner [m.slug]
    · -- both paths lead to the new bundle, which only the empty root allows
      refine .inr ⟨?_, ⟨old, hload, hsame, ?_⟩, fun name hname => ?_⟩
      · by_contra hroot
        rw [hm.path, same_of_site hroot hinside (isName_of_isOwner hm.isOwner) hm.isSlug.isName
          hslug] at hsame
        cases hsame
      · rw [← site_congr hstored.home, hslug, hm.site, place_congr hstored.home]
      · rw [hslug] at hw
        exact has_eq_false_of_removeTree hm hw hname
    · exact .inl (isAt_of_files ((hlies.removeTree hold hslug howner).reads hw hm hshort))

/-- Where publishing goes through, the path it returns leads to all files of the bundle as they were
compiled, if it wrote them and the bundle before was not the same directory by another name. If it
reused a bundle, those files are there that were there, of which only the page is sure. -/
theorem publish_present (hspare : Slug.IsSlug spare)
    (hpublish : s.publish d spare time owner spec = (.ok b, d')) :
    (b.reused = true → d' = d ∧ d.has (b.path.join "index.html") = true) ∧
    (b.reused = false →
      IsAt d' b.path (Bundle.compile spare spec) ∨ s.Lost owner d d' b.path) := by
  obtain ⟨howner, previous, hload⟩ := load_of_publish hpublish
  rcases publish_cases howner hload spare time spec with
    ⟨m, -, hcurrent, -, hpublish'⟩ | ⟨-, hacts, hpublish'⟩
  · rw [hpublish] at hpublish'
    cases hpublish'
    exact ⟨fun _ => ⟨rfl, (Bool.and_eq_true _ _ ▸ hcurrent).2⟩, nofun⟩
  · have hm := placed_manifestFor (s := s) howner hspare time spec
    generalize s.manifestFor spare time owner spec = m at hm hacts hpublish'
    rw [hpublish, hacts] at hpublish'
    rcases hrun : runActs d (s.replacing (s.root.join owner) previous
      (Bundle.compile spare spec) m) with ⟨d₁, _ | e⟩
    · rw [hrun] at hpublish'
      cases hpublish'
      exact ⟨nofun, fun _ => reads_or_lost hm hload hrun⟩
    · rw [hrun] at hpublish'
      cases hpublish'

section Demo

/-! A bundle is published, one of its files is removed, and it is published again. -/

def demoPlain : Disk :=
  (demoDisk demoBundle demoManifest).removeTree ["out", "ann", "demo", "styles.css"]

theorem publish_plain :
    demoStore.publish demoPlain "0a1b2c3d" "today" "ann" demoSpec =
      (.ok ⟨"demo", "http://localhost/ann/demo/index.html", ⟨"out/ann/demo"⟩, true⟩, demoPlain) :=
  publish_demo_again rfl rfl rfl "0a1b2c3d" "today"

theorem publish_present_demo :
    (∃ b d', demoStore.publish {} "0a1b2c3d" "today" "ann" demoSpec = (.ok b, d') ∧
      b.reused = false ∧ IsAt d' b.path demoBundle) ∧
    ∃ b d', demoStore.publish demoPlain "0a1b2c3d" "today" "ann" demoSpec = (.ok b, d') ∧
      b.reused = true ∧ d' = demoPlain := by
  constructor
  · obtain ⟨-, hwritten⟩ := publish_present isSlug_demo publish_demo
    rcases hwritten rfl with hreads | hlost
    · exact ⟨_, _, publish_demo, rfl, hreads⟩
    · exact absurd hlost.emptyRoot (by decide)
  · obtain ⟨hreused, -⟩ := publish_present isSlug_demo publish_plain
    exact ⟨_, _, publish_plain, rfl, (hreused rfl).1⟩

/-! With the empty root, the manifest may name the directory of the new bundle by another path. -/

def bareStore : Store := ⟨⟨""⟩, "http://localhost"⟩

def dottedManifest : Manifest := { demoManifest with path := ⟨"./ann/demo"⟩ }

def bareDisk (text : String) : Disk where
  entries := [(["ann", "manifest.json"], .file text), (["ann"], .dir)]

theorem join_bare :
    (bareStore.root.join "ann").join manifestName = ⟨"ann/manifest.json"⟩ ∧
      (bareStore.root.join "ann").join "demo" = ⟨"ann/demo"⟩ ∧
      Path.join ⟨"ann/demo"⟩ Bundle.markupFile = ⟨"ann/demo/index.html"⟩ ∧
      Path.join ⟨"ann/demo"⟩ Bundle.stylesheetFile = ⟨"ann/demo/styles.css"⟩ ∧
      Path.join ⟨"ann/demo"⟩ Bundle.scriptFile = ⟨"ann/demo/app.js"⟩ := by
  decide

theorem path_bare :
    (bareStore.manifestFor "0a1b2c3d" "today" "ann" demoSpec).path = ⟨"ann/demo"⟩ := by
  have hslug : Slug.ofTitle "0a1b2c3d" demoSpec.complete.title = "demo" := by decide
  simp only [manifestFor, Bundle.slug_compile, hslug, join_bare]

theorem load_bare {text : String} (hparse : Manifest.parse text = .ok dottedManifest) :
    bareStore.loadManifest (bareDisk text) "ann" = .ok (some dottedManifest) := by
  have hhas : (bareDisk text).has ⟨"ann/manifest.json"⟩ = true := rfl
  have hread : (bareDisk text).read ⟨"ann/manifest.json"⟩ = .ok text := rfl
  simp only [loadManifest, ownerDir_eq bareStore (by decide : isOwner "ann" = true), manifestIn,
    join_bare, hhas, hread, hparse, if_true]

theorem replacing_bare (bundle : Bundle) {m : Manifest} (hpath : m.path = ⟨"ann/demo"⟩)
    (text : String) :
    runActs (bareDisk text) (bareStore.replacing (bareStore.root.join "ann") (some dottedManifest)
      bundle m) = (bareDisk m.indented, none) := by
  simp only [replacing, storing, Bundle.files, List.map_cons, List.map_nil, hpath, join_bare]
  rfl

theorem publish_bare {text : String} (hparse : Manifest.parse text = .ok dottedManifest) :
    ∃ b d', bareStore.publish (bareDisk text) "0a1b2c3d" "today" "ann" demoSpec = (.ok b, d') ∧
      b.reused = false ∧ d'.has (b.path.join Bundle.markupFile) = false := by
  have hcurrent : (some dottedManifest).filter (isCurrent (bareDisk text) demoSpec) = none := by
    have hhas : (bareDisk text).has (dottedManifest.path.join Bundle.markupFile) = false := rfl
    simp [isCurrent, hhas]
  have hpublish := publish_of_filter (by decide) (load_bare hparse) hcurrent "0a1b2c3d" "today"
  have hpath := path_bare
  generalize bareStore.manifestFor "0a1b2c3d" "today" "ann" demoSpec = m at hpath hpublish
  simp only [replacing_bare _ hpath] at hpublish
  refine ⟨_, _, hpublish, rfl, ?_⟩
  simp only [hpath, join_bare]
  rfl

/-- Publications that go through without all files: one reuses a bundle that has lost its
stylesheet, and one removes the bundle it has written. -/
theorem publish_incomplete :
    (∃ b d', demoStore.publish demoPlain "0a1b2c3d" "today" "ann" demoSpec = (.ok b, d') ∧
      b.reused = true ∧ d'.has (b.path.join "styles.css") = false) ∧
    ∃ b d', bareStore.publish (bareDisk dottedManifest.indented) "0a1b2c3d" "today" "ann" demoSpec =
        (.ok b, d') ∧ b.reused = false ∧ d'.has (b.path.join "index.html") = false := by
  constructor
  · refine ⟨_, _, publish_plain, rfl, ?_⟩
    have hfile : Path.join ⟨"out/ann/demo"⟩ "styles.css" = ⟨"out/ann/demo/styles.css"⟩ := by decide
    rw [hfile]
    rfl
  · exact publish_bare (Manifest.parse_indented plain_demo (by decide))

end Demo

end Mockup.Store
