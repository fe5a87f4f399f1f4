import Mockup.Proofs.Store.Confined
import Mockup.Proofs.Store.Reuse

/-! Publications that fail although every step on the disk works. Most are refused before anything
is written. But the bundle before is removed only after the new one was stored: where its path is
refused the new bundle stays behind without a manifest, and where it is a directory around the new
bundle that goes with it. -/

namespace Mockup

namespace Files

open Files.Path

variable {d : Disk} {l : Location} {p : Path} {ps : List String} {e : String}

theorem Disk.walk_of_gone
    (hdirs : ∀ j ∈ ps.scanl onward l, d.entry? j = some .dir ∨ d.entry? j = none)
    (hshort : ∀ piece ∈ ps, isTooLong piece = false) (hgone : d.entry? (ps.foldl onward l) = none) :
    d.walk l (ps ++ [e]) = .error .notFound := by
  induction ps generalizing l with
  | nil =>
    rw [List.foldl_nil] at hgone
    rw [List.nil_append, walk, hgone]
  | cons piece rest ih =>
    rw [List.scanl_cons, List.forall_mem_cons] at hdirs
    rw [List.forall_mem_cons] at hshort
    rw [List.cons_append, walk]
    rcases hdirs.1 with hdir | hnone
    · simp only [hdir, hshort.1, Bool.false_eq_true, if_false]
      exact ih hdirs.2 hshort.2 hgone
    · rw [hnone]

theorem write_of_removed (he : IsName e) (hopen : d.IsOpen p) (hl : l ≠ []) (hin : l <+: d.site p)
    (text : String) :
    Step.run (d.removeTree l) (.write (p.join e) text) = (d.removeTree l, some .notFound) := by
  have hentry := Disk.entry?_removeTree hl d
  have hwalk : Disk.walk (d.removeTree l) (d.start p) (p.stem ++ [e]) = .error .notFound := by
    refine Disk.walk_of_gone (fun j hj => ?_) hopen.short ?_
    · rw [hentry]
      split
      · exact .inr rfl
      · exact .inl (hopen.dirs j hj)
    · have hgone := hentry (d.site p)
      rwa [if_pos hin] at hgone
  have hlocate : Disk.locate (d.removeTree l) (p.join e) = .error .notFound := by
    unfold Disk.locate
    rw [if_neg (text_join_ne_empty he), hasNul_join he, hopen.noNul, pieces_join he,
      Disk.start_join he]
    exact hwalk
  simp only [Step.run, Disk.put, hlocate]

end Files

namespace Store

open Files Path Disk

variable {s : Store} {d d' d₁ : Disk} {owner spare time name : String} {spec : Spec}
  {old m : Manifest} {b : Bundle} {e : StoreError} {previous : Option Manifest} {dir : Path}

theorem entry?_of_runActs_storing {p : Path} (hname : IsName name)
    (h : runActs d (storing (p.join name) b) = (d', none)) {l : Location} {x : Entry}
    (hl : ∀ f ∈ b.files, l ≠ d.site (p.join name) ++ [f.1]) (hx : d.entry? l = some x) :
    d'.entry? l = some x := by
  obtain ⟨d₁, hmake, hwrites⟩ := runActs_cons_eq_none.mp h
  have hwidens := widens_run_makeDirs (d := d) (p := p) hname
  rw [perform_run_eq_none hmake] at hwidens
  have hwritten := written_of_runActs (fun f => isName_of_mem_files) (nodup_files b) hwrites
  rw [hwritten.others l (by rwa [site_congr hwidens.home]), hwidens.of_some hx]

theorem noted_of_load (howner : isOwner owner = true)
    (hload : s.loadManifest d owner = .ok (some m)) :
    ∃ text, s.Noted owner d text ∧ Manifest.parse text = .ok m := by
  simp only [loadManifest, ownerDir_eq s howner, manifestIn] at hload
  split at hload
  · next hhas =>
    obtain ⟨hopen, -⟩ := isOpen_of_has isName_manifestName hhas
    cases hread : d.read ((s.root.join owner).join manifestName) with
    | error f => simp [hread] at hload
    | ok text =>
      refine ⟨text, ⟨hopen, ?_⟩, ?_⟩
      · have hlocate := (locate_join (d := d) isName_manifestName).mpr ⟨hopen, by decide, rfl⟩
        rw [site_owner howner] at hlocate
        unfold Disk.read at hread
        rw [hlocate] at hread
        dsimp only at hread
        split at hread
        · next hentry =>
          cases hread
          exact hentry
        · cases hread
        · cases hread
      · cases hparse : Manifest.parse text with
        | error why => simp [hread, hparse] at hload
        | ok m' =>
          simp only [hread, hparse, Except.ok.injEq, Option.some.injEq] at hload
          rw [hload]
  · cases hload

theorem loadManifest_of_stored (hm : s.Placed owner m)
    (hload : s.loadManifest d owner = .ok (some old))
    (hstore : runActs d (storing m.path b) = (d', none)) :
    s.loadManifest d' owner = .ok (some old) := by
  obtain ⟨text, hnoted, hparse⟩ := noted_of_load hm.isOwner hload
  have hsite := hm.site d
  rw [hm.path] at hstore hsite
  have hstored := stored_of_runActs hm.isSlug.isName hstore
  have hnoted' : s.Noted owner d' text := by
    refine ⟨hnoted.isOpen.mono hstored.home fun k _ => hstored.dirs k, ?_⟩
    rw [place_congr hstored.home]
    refine entry?_of_runActs_storing hm.isSlug.isName hstore (fun f _ => ?_) hnoted.manifest
    rw [hsite, place_append, Ne, place_inj]
    simp
  rw [hnoted'.load hm.isOwner, hparse]
  rfl

theorem tellsFault_of_mem_storing {p : Path} {a : Act StoreError} (ha : a ∈ storing p b) :
    TellsFault a := by
  rcases List.mem_cons.mp ha with rfl | ha
  · exact ⟨_, _, rfl, fun _ => rfl⟩
  · obtain ⟨f, -, rfl⟩ := List.mem_map.mp ha
    exact ⟨_, _, rfl, fun _ => rfl⟩

/-- The owner has a manifest of a bundle outside the root, and the new bundle was stored beside
it. -/
structure Abandoned (s : Store) (owner : String) (old m : Manifest) (b : Bundle) (d d' : Disk) :
    Prop where
  loaded : s.loadManifest d owner = .ok (some old)
  notCurrent : isCurrent d m.spec old = false
  elsewhere : old.path.same m.path = false
  outside : s.root.isInside old.path = false
  stored : Stored m.path b d d'
  kept : s.loadManifest d' owner = .ok (some old)

theorem refused_of_runActs (hfault : e.fault? = none)
    (h : runActs d (s.replacing dir previous b m) = (d', some e)) :
    ∃ p, outdated previous m.path = some p ∧ s.root.isInside p = false ∧
      e = .outside p s.root ∧ runActs d (storing m.path b) = (d', none) := by
  have hperformed {d d' : Disk} {as : List (Act StoreError)}
      (has : ∀ a ∈ as, TellsFault a) : runActs d as ≠ (d', some e) := by
    intro hrun
    obtain ⟨f, hf⟩ := fault_of_runActs has hrun
    rw [hf] at hfault
    cases hfault
  have hwriting (p : Path) (text : String) : ∀ a ∈ [writing p text], TellsFault a := by
    intro a ha
    rw [List.mem_singleton.mp ha]
    exact ⟨_, _, rfl, fun _ => rfl⟩
  rw [replacing, List.append_assoc, runActs_append] at h
  rcases hstore : runActs d (storing m.path b) with ⟨d₁, _ | e₁⟩
  · rw [hstore] at h
    dsimp only at h
    cases hold : outdated previous m.path with
    | none =>
      rw [hold] at h
      exact absurd h (hperformed (hwriting _ _))
    | some p =>
      rw [hold] at h
      refine ⟨p, rfl, ?_⟩
      by_cases hinside : s.root.isInside p = true
      · -- the directory may be removed, so all acts are steps on the disk
        refine absurd h (hperformed fun a ha => ?_)
        rcases List.mem_cons.mp ha with rfl | ha
        · exact ⟨_, _, if_pos hinside, fun _ => rfl⟩
        · exact hwriting _ _ a ha
      · have hrefuse : s.deleting p = .refuse (.outside p s.root) := if_neg hinside
        rw [Option.map_some, Option.toList_some, List.singleton_append, hrefuse, runActs,
          Act.run] at h
        cases h
        exact ⟨Bool.eq_false_iff.mpr hinside, rfl, rfl⟩
  · rw [hstore] at h
    cases h
    exact absurd hstore (hperformed fun a => tellsFault_of_mem_storing)

/-- A manifest that names a directory around the new bundle has it removed with the bundle in it,
and where the directory of the owner is in it there is no place for the new manifest. -/
theorem runActs_replacing_around (hm : s.Placed owner m) (hsame : old.path.same m.path = false)
    (hinside : s.root.isInside old.path = true)
    (hstore : runActs d (storing m.path b) = (d₁, none)) {l : Location} (hl : l ≠ [])
    (hin : l <+: s.place d owner [])
    (hremove : Step.run d₁ (.discard old.path) = (d₁.removeTree l, none)) :
    runActs d (s.replacing (s.root.join owner) (some old) b m) =
      (d₁.removeTree l, some (.cannotWrite ((s.root.join owner).join manifestName) .notFound)) := by
  have houtdated : outdated (some old) m.path = some old.path := by simp [outdated, hsame]
  have hdeleting : s.deleting old.path =
      .perform (.discard old.path) (.cannotRemove old.path) := if_pos hinside
  have hstored := hstore
  rw [hm.path] at hstored
  have hstored := stored_of_runActs hm.isSlug.isName hstored
  obtain ⟨hopen, -⟩ := (isOpen_join hm.isSlug.isName).mp hstored.isOpen
  have hsite : d₁.site (s.root.join owner) = s.place d owner [] := by
    rw [site_join (isName_of_isOwner hm.isOwner), site_congr hstored.home]
    rfl
  have hwrite := write_of_removed isName_manifestName hopen hl (hsite ▸ hin) m.indented
  rw [replacing, List.append_assoc, runActs_append, hstore, houtdated, Option.map_some,
    Option.toList_some, List.singleton_append, hdeleting]
  simp only [runActs, Act.run, writing, hremove, hwrite]

theorem abandoned_of_publish (hspare : Slug.IsSlug spare)
    (hpublish : s.publish d spare time owner spec = (.error e, d')) (hfault : e.fault? = none) :
    d' = d ∨ ∃ old, e = .outside old.path s.root ∧
      s.Abandoned owner old (s.manifestFor spare time owner spec) (Bundle.compile spare spec) d
        d' := by
  cases hload : s.loadManifest d owner with
  | error e' =>
    rw [(publish_of_error hload spare time spec).2] at hpublish
    cases hpublish
    exact .inl rfl
  | ok previous =>
    have howner := isOwner_of_load hload
    have hm := placed_manifestFor (s := s) howner hspare time spec
    have hspec := s.spec_manifestFor spare time owner spec
    rcases publish_cases howner hload spare time spec with
      ⟨_, -, -, -, hpublish'⟩ | ⟨hcurrent, hacts, hpublish'⟩
    · rw [hpublish] at hpublish'
      cases hpublish'
    · rw [hpublish, hacts] at hpublish'
      generalize s.manifestFor spare time owner spec = m at hm hspec hpublish' ⊢
      rcases hrun : runActs d (s.replacing (s.root.join owner) previous
        (Bundle.compile spare spec) m) with ⟨d₁, _ | e₁⟩
      · rw [hrun] at hpublish'
        cases hpublish'
      · rw [hrun] at hpublish'
        cases hpublish'
        obtain ⟨p, hold, hinside, rfl, hstore⟩ := refused_of_runActs hfault hrun
        obtain ⟨old, holdMem, rfl⟩ := Option.map_eq_some_iff.mp hold
        obtain ⟨rfl, hsame⟩ := Option.filter_eq_some_iff.mp holdMem
        rw [Option.filter_some, ite_eq_right_iff] at hcurrent
        refine .inr ⟨old, rfl, hload, ?_, by simpa using hsame, hinside, ?_,
          loadManifest_of_stored hm hload hstore⟩
        · rw [hspec]
          exact Bool.eq_false_iff.mpr fun h => by cases hcurrent h
        · rw [hm.path] at hstore ⊢
          exact stored_of_runActs hm.isSlug.isName hstore

theorem publish_of_around (hspare : Slug.IsSlug spare) (howner : isOwner owner = true)
    (hload : s.loadManifest d owner = .ok (some old)) (hcurrent : isCurrent d spec old = false)
    (hsame : old.path.same (s.manifestFor spare time owner spec).path = false)
    (hinside : s.root.isInside old.path = true)
    (hstore : runActs d (storing (s.manifestFor spare time owner spec).path
      (Bundle.compile spare spec)) = (d₁, none)) {l : Location} (hl : l ≠ [])
    (hin : l <+: s.place d owner [])
    (hremove : Step.run d₁ (.discard old.path) = (d₁.removeTree l, none)) :
    s.publish d spare time owner spec =
      (.error (.cannotWrite ((s.root.join owner).join manifestName) .notFound),
        d₁.removeTree l) := by
  have hm := placed_manifestFor (s := s) howner hspare time spec
  rw [publish_of_filter howner hload (by simp [hcurrent]),
    runActs_replacing_around hm hsame hinside hstore hl hin hremove]
  rfl

theorem publish_of_outside (howner : isOwner owner = true)
    (hload : s.loadManifest d owner = .ok (some old)) (hcurrent : isCurrent d spec old = false)
    (hsame : old.path.same (s.manifestFor spare time owner spec).path = false)
    (houtside : s.root.isInside old.path = false)
    (hstore : runActs d (storing (s.manifestFor spare time owner spec).path
      (Bundle.compile spare spec)) = (d₁, none)) :
    s.publish d spare time owner spec = (.error (.outside old.path s.root), d₁) := by
  have houtdated : outdated (some old) (s.manifestFor spare time owner spec).path =
      some old.path := by simp [outdated, hsame]
  have hrefuse : s.deleting old.path = .refuse (.outside old.path s.root) :=
    if_neg (by rw [houtside]; exact Bool.false_ne_true)
  rw [publish_of_filter howner hload (by simp [hcurrent]), replacing, List.append_assoc,
    runActs_append, hstore, houtdated, Option.map_some, hrefuse]
  rfl

theorem publish_of_stuck (howner : isOwner owner = true)
    (hload : s.loadManifest d owner = .ok (some old)) (hcurrent : isCurrent d spec old = false)
    (hsame : old.path.same (s.manifestFor spare time owner spec).path = false)
    (hinside : s.root.isInside old.path = true)
    (hstore : runActs d (storing (s.manifestFor spare time owner spec).path
      (Bundle.compile spare spec)) = (d₁, none)) {f : Fault} {d₂ : Disk}
    (hremove : Step.run d₁ (.discard old.path) = (d₂, some f)) :
    s.publish d spare time owner spec = (.error (.cannotRemove old.path f), d₂) := by
  have houtdated : outdated (some old) (s.manifestFor spare time owner spec).path =
      some old.path := by simp [outdated, hsame]
  have hdeleting : s.deleting old.path =
      .perform (.discard old.path) (.cannotRemove old.path) := if_pos hinside
  rw [publish_of_filter howner hload (by simp [hcurrent]), replacing, List.append_assoc,
    runActs_append, hstore, houtdated, Option.map_some, hdeleting]
  simp only [Option.toList_some, List.singleton_append, runActs, Act.run, hremove, finish]

/-- A publication that fails although every step on the disk works changes nothing, unless the
owner has a manifest of a bundle that is neither inside the root nor at the path of the new one:
then the new bundle is stored and the manifest stays, which happens to every such publication. It
also stays where the manifest names what cannot be removed, as a file. A manifest that names a
directory inside the root with the directory of the owner in it, as the root itself, makes the
publication fail after everything in it was removed. -/
theorem publish_failed (hspare : Slug.IsSlug spare) (s : Store) (d : Disk) (time owner : String)
    (spec : Spec) :
    let m := s.manifestFor spare time owner spec
    let b := Bundle.compile spare spec
    (∀ e d', s.publish d spare time owner spec = (.error e, d') → e.fault? = none →
      d' = d ∨ ∃ old, e = .outside old.path s.root ∧ s.Abandoned owner old m b d d') ∧
    ∀ old d₁, isOwner owner = true → s.loadManifest d owner = .ok (some old) →
      isCurrent d spec old = false → old.path.same m.path = false →
      runActs d (storing m.path b) = (d₁, none) →
        (s.root.isInside old.path = false →
          s.publish d spare time owner spec = (.error (.outside old.path s.root), d₁)) ∧
        (∀ f d₂, s.root.isInside old.path = true → Step.run d₁ (.discard old.path) = (d₂, some f) →
          s.publish d spare time owner spec = (.error (.cannotRemove old.path f), d₂)) ∧
        ∀ l, s.root.isInside old.path = true → l ≠ [] → l <+: s.place d owner [] →
          Step.run d₁ (.discard old.path) = (d₁.removeTree l, none) →
            s.publish d spare time owner spec =
              (.error (.cannotWrite ((s.root.join owner).join manifestName) .notFound),
                d₁.removeTree l) :=
  ⟨fun _ _ => abandoned_of_publish hspare, fun _ _ howner hload hcurrent hsame hstore =>
    ⟨fun houtside => publish_of_outside howner hload hcurrent hsame houtside hstore,
      fun _ _ hinside => publish_of_stuck howner hload hcurrent hsame hinside hstore,
      fun _ hinside => publish_of_around hspare howner hload hcurrent hsame hinside hstore⟩⟩

section Demo

/-! The manifest on the disk names a directory outside the root, or the root. -/

def strayDisk (m : Manifest) : Disk where
  entries := [(["out", "ann", "manifest.json"], .file m.indented), (["out", "ann"], .dir),
    (["out"], .dir)]

def movedManifest : Manifest := { demoManifest with path := ⟨"old/ann/demo"⟩ }

def wideManifest : Manifest := { demoManifest with path := ⟨"out"⟩ }

def strayStored (m : Manifest) (b : Bundle) : Disk :=
  let d := (strayDisk m).set ["out", "ann", "demo"] .dir
  let d := d.set ["out", "ann", "demo", "index.html"] (.file b.markup)
  let d := d.set ["out", "ann", "demo", "styles.css"] (.file b.stylesheet)
  d.set ["out", "ann", "demo", "app.js"] (.file b.script)

theorem storing_stray (m : Manifest) (b : Bundle) :
    runActs (strayDisk m) (storing ⟨"out/ann/demo"⟩ b) = (strayStored m b, none) := by
  simp only [storing, Bundle.files, List.map_cons, List.map_nil, join_demo]
  rfl

theorem load_stray {m : Manifest} (hspec : m.spec = demoSpec) :
    demoStore.loadManifest (strayDisk m) "ann" = .ok (some m) := by
  have hlevels : demoSpec.levels ≤ 126 := by decide
  exact load_demo rfl rfl (Manifest.parse_indented (hspec ▸ plain_demo) (hspec ▸ hlevels))

theorem notCurrent_moved : isCurrent (strayDisk movedManifest) demoSpec movedManifest = false := by
  have hhas : (strayDisk movedManifest).has (movedManifest.path.join Bundle.markupFile) = false :=
    rfl
  rw [isCurrent, hhas, Bool.and_false]

theorem publish_moved :
    demoStore.publish (strayDisk movedManifest) "0a1b2c3d" "today" "ann" demoSpec =
      (.error (.outside ⟨"old/ann/demo"⟩ ⟨"out"⟩), strayStored movedManifest demoBundle) := by
  have hpath := congrArg Manifest.path manifestFor_demo
  have hstore : runActs (strayDisk movedManifest)
      (storing (demoStore.manifestFor "0a1b2c3d" "today" "ann" demoSpec).path demoBundle) =
        (strayStored movedManifest demoBundle, none) := by
    rw [hpath]
    exact storing_stray _ _
  exact publish_of_outside (by decide) (load_stray rfl) notCurrent_moved (by rw [hpath]; decide)
    (by decide) hstore

/-- A publication that is refused leaves a bundle where none was. -/
theorem publish_failed_leaves_bundle :
    ∃ e d', demoStore.publish (strayDisk movedManifest) "0a1b2c3d" "today" "ann" demoSpec =
        (.error e, d') ∧ e.fault? = none ∧
      (strayDisk movedManifest).has ⟨"out/ann/demo/index.html"⟩ = false ∧
      d'.has ⟨"out/ann/demo/index.html"⟩ = true :=
  ⟨_, _, publish_moved, rfl, rfl, rfl⟩

theorem publish_failed_stray :
    (∃ d', demoStore.Abandoned "ann" movedManifest demoManifest demoBundle
      (strayDisk movedManifest) d') ∧
    ∃ e d', demoStore.publish (strayDisk wideManifest) "0a1b2c3d" "today" "ann" demoSpec =
        (.error e, d') ∧ d'.has ⟨"out/ann/manifest.json"⟩ = false := by
  have hfailed (d : Disk) := publish_failed isSlug_demo demoStore d "today" "ann" demoSpec
  constructor
  · obtain ⟨habandoned, -⟩ := hfailed (strayDisk movedManifest)
    rcases habandoned _ _ publish_moved rfl with hsame | ⟨old, -, habandoned⟩
    · have hhas : (strayStored movedManifest demoBundle).has ⟨"out/ann/demo/index.html"⟩ =
          (strayDisk movedManifest).has ⟨"out/ann/demo/index.html"⟩ := by rw [hsame]
      cases hhas
    · have hold := habandoned.loaded
      rw [load_stray rfl] at hold
      cases hold
      rw [manifestFor_demo] at habandoned
      exact ⟨_, habandoned⟩
  · obtain ⟨-, howner⟩ := hfailed (strayDisk wideManifest)
    have hhas : (strayDisk wideManifest).has (wideManifest.path.join Bundle.markupFile) = false :=
      rfl
    have hcurrent : isCurrent (strayDisk wideManifest) demoSpec wideManifest = false := by
      rw [isCurrent, hhas, Bool.and_false]
    have hpath := congrArg Manifest.path manifestFor_demo
    obtain ⟨-, -, hpublish⟩ := howner wideManifest (strayStored wideManifest demoBundle) (by decide)
      (load_stray rfl) hcurrent (by rw [hpath]; decide) (by rw [hpath]; exact storing_stray _ _)
    have hremoved := hpublish ["out"] (by decide) (by decide) ⟨["ann"], rfl⟩ rfl
    exact ⟨_, _, hremoved, rfl⟩

end Demo

end Store

end Mockup
