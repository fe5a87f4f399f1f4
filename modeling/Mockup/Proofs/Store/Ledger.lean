import Mockup.Proofs.Store.Call
import Mockup.Proofs.Store.Effect
import Mockup.Proofs.Store.Run

/-! What is known of the directory of an owner after calls some of which failed half-way. The
manifest that was written last is there; its bundle is there, or is gone altogether, unless a
publication with the same slug wrote a file and failed afterwards. -/

namespace Mockup.Store

open Files Path Disk

variable {s : Store} {d d' : Disk} {owner spare time : String} {spec : Spec}
  {previous : Option Manifest}

structure Tells (s : Store) (owner : String) (d : Disk) (l : Ledger) : Prop where
  placed : ∀ m ∈ l.manifest, s.Placed owner m
  isOpen : ∀ m ∈ l.manifest, d.IsOpen (s.root.join owner)
  manifest : d.entry? (s.place d owner [manifestName]) = l.manifest.map fun m => .file m.indented
  bundle : l.intact = true → ∀ m ∈ l.manifest,
    d.entry? (s.place d owner [m.slug, Bundle.markupFile]) ≠ none →
      ∀ f ∈ (Bundle.compile m.slug m.spec).files,
        d.entry? (s.place d owner [m.slug, f.1]) = some (.file f.2)

theorem fst_runActs_of_writing {p : Path} {name text : String} {as : List (Act StoreError)}
    (hname : IsName name) (hwrote : writesFile d (writing (p.join name) text :: as) = false) :
    (runActs d (writing (p.join name) text :: as)).1 = d := by
  rcases put_join_cases (d := d) (p := p) hname fun _ => text with ⟨t, hput⟩ | ⟨f, hput⟩
  · simp [writesFile, writing, Act.run, Step.run, hput, isWriting] at hwrote
  · simp [runActs, writing, Act.run, Step.run, hput]

theorem widens_of_not_writesFile {m : Manifest} {b : Bundle} {as rest : List (Act StoreError)}
    (hm : s.Placed owner m) (has : as <+: storing m.path b ++ rest)
    (hwrote : writesFile d as = false) : Widens (d.stops m.path) d (runActs d as).1 := by
  have hwidens := widens_run_makeDirs (d := d) (p := s.root.join owner) hm.isSlug.isName
  rw [← hm.path] at hwidens
  rw [storing, Bundle.files, List.map_cons, List.cons_append, List.cons_append] at has
  rcases as with _ | ⟨a, as⟩
  · exact .refl _ d
  obtain ⟨rfl, hrest⟩ := List.cons_prefix_cons.mp has
  rcases hmake : Step.run d (.makeDirs m.path) with ⟨d₁, _ | f⟩
  · rw [hmake] at hwidens
    simp only [writesFile, runActs, Act.run, hmake, isWriting, Bool.false_or] at hwrote ⊢
    rcases as with _ | ⟨a, as⟩
    · exact hwidens
    · obtain ⟨rfl, -⟩ := List.cons_prefix_cons.mp hrest
      have hname : IsName Bundle.markupFile := isName_of_mem_fileNames (by decide)
      rw [fst_runActs_of_writing hname hwrote]
      exact hwidens
  · rw [hmake] at hwidens
    simpa only [runActs, Act.run, hmake] using hwidens

theorem placed_manifestFor (howner : isOwner owner = true) (hspare : Slug.IsSlug spare)
    (time : String) (spec : Spec) : s.Placed owner (s.manifestFor spare time owner spec) where
  isOwner := howner
  isSlug := by
    rw [slug_manifestFor]
    exact Bundle.isSlug_compile hspare spec
  path := by simp only [manifestFor]

/-- The disk has a manifest with a text for the owner. -/
structure Noted (s : Store) (owner : String) (d : Disk) (text : String) : Prop where
  isOpen : d.IsOpen (s.root.join owner)
  manifest : d.entry? (s.place d owner [manifestName]) = some (.file text)

theorem Noted.load {text : String} (h : s.Noted owner d text) (howner : isOwner owner = true) :
    s.loadManifest d owner = ((Manifest.parse text).mapError
      (.cannotParse ((s.root.join owner).join manifestName))).map some := by
  have hentry := h.manifest
  rw [← site_owner howner] at hentry
  have hhas := has_join isName_manifestName h.isOpen (by decide) hentry
  have hread := read_join isName_manifestName h.isOpen (by decide) hentry
  simp only [loadManifest, ownerDir_eq s howner, manifestIn, hhas, hread, if_true]
  cases Manifest.parse text <;> rfl

theorem placed_of_sameTexts {m m' : Manifest} (h : s.Placed owner m)
    (hsame : Manifest.SameTexts m m') : s.Placed owner m' where
  isOwner := h.isOwner
  isSlug := hsame.slug ▸ h.isSlug
  path := by rw [hsame.path, hsame.slug, h.path]

theorem Placed.isOpen_owner {m : Manifest} (hm : s.Placed owner m) (h : d.IsOpen m.path) :
    d.IsOpen (s.root.join owner) := by
  rw [hm.path] at h
  exact ((isOpen_join hm.isSlug.isName).mp h).1

namespace Tells

variable {l : Ledger} {slug : String} {m : Manifest} {b : Bundle}

theorem spoiled (h : s.Tells owner d l) (wrote : Bool) (slug : String) :
    s.Tells owner d (l.spoiled wrote slug) where
  placed := h.placed
  isOpen := h.isOpen
  manifest := h.manifest
  bundle := fun hintact => h.bundle (Bool.and_eq_true _ _ ▸ hintact).1

theorem of_none (h : d.entry? (s.place d owner [manifestName]) = none) : s.Tells owner d {} where
  placed := nofun
  isOpen := nofun
  manifest := h
  bundle := fun _ => nofun

theorem of_widens (h : s.Tells owner d l) (hdirect : s.Direct d) (hm : s.Placed owner m)
    (hwidens : Widens (d.stops m.path) d d') : s.Tells owner d' l where
  placed := h.placed
  isOpen := fun m' hm' => (h.isOpen m' hm').mono hwidens.home fun k _ => hwidens.of_some
  manifest := by
    have hne : [manifestName] ≠ [m.slug] := by simpa using (slug_ne_manifestName hm.isSlug).symm
    rw [place_congr hwidens.home,
      hwidens.entry?_eq (hm.not_mem_stops hdirect (List.cons_ne_nil _ _) hne)]
    exact h.manifest
  bundle := by
    intro hintact m' hm' hmarkup f hf
    have hentry (name : String) : d'.entry? (s.place d' owner [m'.slug, name]) =
        d.entry? (s.place d owner [m'.slug, name]) := by
      rw [place_congr hwidens.home]
      exact hwidens.entry?_eq (hm.not_mem_stops hdirect (List.cons_ne_nil _ _) (by simp))
    rw [hentry] at hmarkup ⊢
    exact h.bundle hintact m' hm' hmarkup f hf

/-- A publication that fails spoils what is known of the bundle with its slug only. -/
theorem of_leaves (h : s.Tells owner d l) (howner : isOwner owner = true)
    (htouches : s.Touches owner d d') (hleaves : s.Leaves owner slug d d') :
    s.Tells owner d' (l.spoiled true slug) where
  placed := h.placed
  isOpen := by
    intro m hm
    refine (h.isOpen m hm).mono htouches.home fun k hk hdir => ?_
    rw [stops_join (isName_of_isOwner howner), List.mem_append, List.mem_singleton] at hk
    rcases hk with hk | rfl
    · exact htouches.dirs k hk hdir
    · exact hleaves.dir hdir
  manifest := by
    rw [place_congr htouches.home, hleaves.manifest]
    exact h.manifest
  bundle := by
    intro hintact m hm hmarkup f hf
    obtain ⟨hintact, hslug⟩ := Bool.and_eq_true _ _ ▸ hintact
    -- the bundle is still vouched for, so it is not the one that was overwritten
    have hne : m.slug ≠ slug := by
      rw [show l.manifest = some m from hm] at hslug
      exact of_decide_eq_true hslug
    rw [place_congr htouches.home] at hmarkup ⊢
    rcases hleaves.others m.slug hne with hkept | hgone
    · rw [hkept] at hmarkup ⊢
      exact h.bundle hintact m hm hmarkup f hf
    · exact absurd (hgone _) hmarkup

theorem of_installed (hm : s.Placed owner m)
    (h : s.Installed owner (Bundle.compile m.slug m.spec) m d) :
    s.Tells owner d ⟨some m, true⟩ where
  placed := by
    rintro m' ⟨⟩
    exact hm
  isOpen := by
    rintro m' ⟨⟩
    exact hm.isOpen_owner h.isOpen
  manifest := h.manifest
  bundle := by
    rintro - m' ⟨⟩ - f hf
    exact h.files f hf

theorem loadManifest_none (h : s.Tells owner d l) (howner : isOwner owner = true)
    (hnone : l.manifest = none) : s.loadManifest d owner = .ok none := by
  have hentry := h.manifest
  rw [hnone, ← site_owner howner] at hentry
  have hhas := has_join_of_none isName_manifestName hentry
  simp [loadManifest, ownerDir_eq s howner, manifestIn, hhas]

theorem noted (h : s.Tells owner d l) (hm : l.manifest = some m) :
    s.Noted owner d m.indented where
  isOpen := h.isOpen m hm
  manifest := by
    rw [h.manifest, hm]
    rfl

theorem parse_of_load (h : s.Tells owner d l) (howner : isOwner owner = true)
    (hload : s.loadManifest d owner = .ok previous) {old : Manifest} (hold : old ∈ previous) :
    ∃ m, l.manifest = some m ∧ Manifest.parse m.indented = .ok old := by
  cases hm : l.manifest with
  | none =>
    rw [h.loadManifest_none howner hm] at hload
    cases hload
    cases hold
  | some m =>
    rw [(h.noted hm).load howner] at hload
    refine ⟨m, rfl, ?_⟩
    cases hparse : Manifest.parse m.indented with
    | error why =>
      rw [hparse] at hload
      cases hload
    | ok m' =>
      rw [hparse] at hload
      cases hload
      cases hold
      rfl

theorem placed_of_load (h : s.Tells owner d l) (howner : isOwner owner = true)
    (hload : s.loadManifest d owner = .ok previous) : ∀ old ∈ previous, s.Placed owner old := by
  intro old hold
  obtain ⟨m, hm, hparse⟩ := h.parse_of_load howner hload hold
  exact placed_of_sameTexts (h.placed m hm) (Manifest.sameTexts_of_parse hparse)

theorem acts_cases (h : s.Tells owner d l) (howner : isOwner owner = true) (spare time : String)
    (spec : Spec) :
    s.acts d spare time owner spec = [] ∨
      ∃ previous, (∀ old ∈ previous, s.Placed owner old) ∧
        s.acts d spare time owner spec = s.replacing (s.root.join owner) previous
          (Bundle.compile spare spec) (s.manifestFor spare time owner spec) := by
  cases hload : s.loadManifest d owner with
  | error e => exact .inl (publish_of_error hload spare time spec).1
  | ok previous =>
    rcases publish_cases howner hload spare time spec with ⟨-, -, -, hacts, -⟩ | ⟨-, hacts, -⟩
    · exact .inl hacts
    · exact .inr ⟨previous, h.placed_of_load howner hload, hacts⟩

/-- What acts of a replacement leave of which an act before the last fails. -/
theorem of_placing (h : s.Tells owner d l) (hdirect : s.Direct d) (hm : s.Placed owner m)
    (hprevious : ∀ old ∈ previous, s.Placed owner old) {as : List (Act StoreError)}
    (has : as <+: s.placing previous b m) :
    s.Touches owner d (runActs d as).1 ∧
      s.Tells owner (runActs d as).1 (l.spoiled (writesFile d as) m.slug) := by
  obtain ⟨htouches, hleaves⟩ := runActs_placing hm hprevious (fun a ha => has.subset ha) hdirect
  refine ⟨htouches, ?_⟩
  cases hwrote : writesFile d as with
  | true => exact h.of_leaves hm.isOwner htouches hleaves
  | false =>
    have hwidens := widens_of_not_writesFile hm has hwrote
    exact (h.of_widens hdirect hm hwidens).spoiled false m.slug

theorem interrupted (h : s.Tells owner d l) (hdirect : s.Direct d) (howner : isOwner owner = true)
    (hspare : Slug.IsSlug spare) (n : Nat) :
    s.Touches owner d (s.interrupted d n spare time owner spec) ∧
      s.Tells owner (s.interrupted d n spare time owner spec)
        ((Call.interrupted n spare time owner spec).note s d l) := by
  rw [Call.note, Store.interrupted]
  rcases h.acts_cases howner spare time spec with hacts | ⟨previous, hprevious, hacts⟩
  · rw [hacts, List.dropLast_nil, List.take_nil]
    exact ⟨.refl s owner d, h.spoiled _ _⟩
  · have hm := placed_manifestFor (s := s) howner hspare time spec
    rw [hacts, replacing_eq, List.dropLast_concat, ← s.slug_manifestFor spare time owner spec]
    exact h.of_placing hdirect hm hprevious (List.take_prefix _ _)

theorem publish (h : s.Tells owner d l) (hdirect : s.Direct d) (howner : isOwner owner = true)
    (hspare : Slug.IsSlug spare) :
    s.Touches owner d (s.publish d spare time owner spec).2 ∧
      s.Tells owner (s.publish d spare time owner spec).2
        ((Call.publish spare time owner spec).note s d l) := by
  cases hload : s.loadManifest d owner with
  | error e =>
    obtain ⟨-, hpublish⟩ := publish_of_error hload spare time spec
    rw [Call.note, hpublish]
    exact ⟨.refl s owner d, h.spoiled _ _⟩
  | ok previous =>
    rcases publish_cases howner hload spare time spec with
      ⟨m, -, -, -, hpublish⟩ | ⟨-, hacts, hpublish⟩
    · rw [Call.note, hpublish]
      exact ⟨.refl s owner d, h⟩
    · have hm := placed_manifestFor (s := s) howner hspare time spec
      have hprevious := h.placed_of_load howner hload
      rw [Call.note, hpublish]
      rcases hrun : runActs d (s.acts d spare time owner spec) with ⟨d', _ | e⟩
      · rw [hacts] at hrun
        obtain ⟨htouches, hinstalled⟩ := installed_of_runActs hm hprevious hdirect hrun
        rw [← compile_manifestFor s spare time owner spec] at hinstalled
        exact ⟨htouches, of_installed hm hinstalled⟩
      · -- the manifest is not written, so the acts before it lead to the same disk
        have hplacing := h.of_placing hdirect hm hprevious (b := Bundle.compile spare spec)
          List.prefix_rfl
        rw [hacts] at hrun
        rw [← eq_of_runActs_replacing hrun, slug_manifestFor] at hplacing
        rw [hacts, replacing_eq, List.dropLast_concat]
        exact hplacing

theorem deleteOwner (h : s.Tells owner d l) (hdirect : s.Direct d) (howner : isOwner owner = true) :
    s.Touches owner d (s.deleteOwner d owner).2 ∧
      s.Tells owner (s.deleteOwner d owner).2 ((Call.deleteOwner owner).note s d l) := by
  rw [Call.note]
  rcases deleteOwner_cases (s := s) (d := d) howner with hdelete | hdelete | ⟨e, hdelete⟩
  · rw [hdelete]
    have hgone : Disk.entry? (d.removeTree (s.place d owner [])) (s.place d owner [manifestName]) =
        none := by rw [entry?_removeTree_place, if_pos List.nil_prefix]
    exact ⟨touches_removeTree hdirect [], of_none hgone⟩
  · rw [hdelete]
    exact ⟨.refl s owner d, h⟩
  · rw [hdelete]
    exact ⟨.refl s owner d, h⟩

end Tells

structure Consistent (s : Store) (d : Disk) (l : String → Ledger) : Prop where
  direct : s.Direct d
  tells : ∀ owner, isOwner owner = true → s.Tells owner d (l owner)

/-- From one disk to the other, nothing changed in the directory of an owner and on the way to
it. -/
structure Apart (s : Store) (owner : String) (d d' : Disk) : Prop where
  home : d'.home = d.home
  dirs : ∀ k ∈ d.stops s.root, d.entry? k = some .dir → d'.entry? k = some .dir
  entries : ∀ k, d'.entry? (s.place d owner k) = d.entry? (s.place d owner k)

namespace Apart

theorem refl (s : Store) (owner : String) (d : Disk) : s.Apart owner d d :=
  ⟨rfl, fun _ _ hk => hk, fun _ => rfl⟩

theorem trans {d₁ : Disk} (h : s.Apart owner d d₁) (h' : s.Apart owner d₁ d') :
    s.Apart owner d d' where
  home := h'.home.trans h.home
  dirs := by
    intro k hk hdir
    refine h'.dirs k ?_ (h.dirs k hk hdir)
    rwa [stops_congr h.home]
  entries := by
    intro k
    have hentry := h'.entries k
    rw [place_congr h.home] at hentry
    rw [hentry, h.entries k]

theorem of_touches {other : String} (h : s.Touches other d d') (hdirect : s.Direct d)
    (hne : owner ≠ other) : s.Apart owner d d' :=
  ⟨h.home, h.dirs, fun k => h.entry?_of_ne hdirect hne k⟩

theorem isOpen {p : Path} (h : s.Apart owner d d') (hopen : d.IsOpen p)
    (hstops : ∀ l ∈ d.stops p, l ∈ d.stops s.root ∨ ∃ k, l = s.place d owner k) : d'.IsOpen p := by
  refine hopen.mono h.home fun l hl hdir => ?_
  rcases hstops l hl with hroot | ⟨k, rfl⟩
  · exact h.dirs l hroot hdir
  · rw [h.entries, hdir]

theorem isOpen_owner (h : s.Apart owner d d') (howner : isOwner owner = true)
    (hopen : d.IsOpen (s.root.join owner)) : d'.IsOpen (s.root.join owner) := by
  refine h.isOpen hopen fun l hl => ?_
  rw [stops_join (isName_of_isOwner howner), List.mem_append, List.mem_singleton] at hl
  exact hl.imp_right fun heq => ⟨[], heq⟩

theorem isOpen_placed {m : Manifest} (h : s.Apart owner d d') (hm : s.Placed owner m)
    (hopen : d.IsOpen m.path) : d'.IsOpen m.path := by
  refine h.isOpen hopen fun l hl => ?_
  rw [hm.stops, List.mem_append, List.mem_pair] at hl
  rcases hl with hl | rfl | rfl
  · exact .inl hl
  · exact .inr ⟨[], rfl⟩
  · exact .inr ⟨[m.slug], rfl⟩

end Apart

theorem Noted.of_apart {text : String} (h : s.Noted owner d text) (howner : isOwner owner = true)
    (hapart : s.Apart owner d d') : s.Noted owner d' text where
  isOpen := hapart.isOpen_owner howner h.isOpen
  manifest := by
    rw [place_congr hapart.home, hapart.entries]
    exact h.manifest

theorem Tells.of_apart {l : Ledger} (h : s.Tells owner d l) (howner : isOwner owner = true)
    (hapart : s.Apart owner d d') : s.Tells owner d' l where
  placed := h.placed
  isOpen := fun m hm => hapart.isOpen_owner howner (h.isOpen m hm)
  manifest := by
    rw [place_congr hapart.home, hapart.entries]
    exact h.manifest
  bundle := by
    intro hintact m hm hmarkup f hf
    rw [place_congr hapart.home, hapart.entries] at hmarkup ⊢
    exact h.bundle hintact m hm hmarkup f hf

namespace Consistent

variable {l : String → Ledger} {c : Call} {calls : List Call}

theorem call_target (h : s.Consistent d l) (hc : c.Sound) (howner : isOwner c.target = true) :
    s.Touches c.target d (c.run s d) ∧
      s.Tells c.target (c.run s d) (c.note s d (l c.target)) := by
  have htells := h.tells c.target howner
  cases c with
  | publish spare time owner spec => exact htells.publish h.direct howner hc
  | interrupted n spare time owner spec => exact htells.interrupted h.direct howner hc n
  | deleteOwner owner => exact htells.deleteOwner h.direct howner

theorem run_eq_self (h : ¬ isOwner c.target = true) (d : Disk) : c.run s d = d := by
  have hload := loadManifest_of_not_isOwner (s := s) h d
  cases c with
  | publish spare time owner spec =>
    rw [Call.target] at hload
    rw [Call.run, (publish_of_error hload spare time spec).2]
  | interrupted n spare time owner spec =>
    rw [Call.target] at hload
    rw [Call.run, interrupted, (publish_of_error hload spare time spec).1, List.dropLast_nil,
      List.take_nil]
    rfl
  | deleteOwner owner =>
    have howner : s.ownerDir owner = .error (.invalidOwner owner) := if_neg h
    rw [Call.run, deleteOwner, howner]

/-- The step: a call keeps to the directory of its owner, and its ledger tells what it leaves. -/
theorem call (h : s.Consistent d l) (hc : c.Sound) :
    s.Consistent (c.run s d)
        (fun owner => if c.target = owner then c.note s d (l owner) else l owner) ∧
      ∀ owner, c.target ≠ owner → s.Apart owner d (c.run s d) := by
  by_cases howner : isOwner c.target = true
  · obtain ⟨htouches, htells⟩ := h.call_target hc howner
    have hapart (owner : String) (hne : c.target ≠ owner) : s.Apart owner d (c.run s d) :=
      .of_touches htouches h.direct hne.symm
    refine ⟨⟨h.direct.of_home htouches.home, fun owner hvalid => ?_⟩, hapart⟩
    by_cases heq : c.target = owner
    · rw [if_pos heq]
      exact heq ▸ htells
    · rw [if_neg heq]
      exact (h.tells owner hvalid).of_apart hvalid (hapart owner heq)
  -- a call for an invalid owner is refused, and the ledgers are those of valid owners
  · rw [run_eq_self howner]
    refine ⟨⟨h.direct, fun owner hvalid => ?_⟩, fun owner _ => .refl s owner d⟩
    have hne : c.target ≠ owner := fun heq => howner (heq ▸ hvalid)
    rw [if_neg hne]
    exact h.tells owner hvalid

/-- The run: from the first call on. -/
theorem after (h : s.Consistent d l) (hcalls : ∀ c ∈ calls, c.Sound) :
    s.Consistent (s.after d calls) (fun owner => s.ledger owner d (l owner) calls) ∧
      ∀ owner, (∀ c ∈ calls, c.target ≠ owner) → s.Apart owner d (s.after d calls) := by
  induction calls generalizing d l with
  | nil => exact ⟨h, fun owner _ => .refl s owner d⟩
  | cons c calls ih =>
    rw [List.forall_mem_cons] at hcalls
    obtain ⟨hconsistent, hapart⟩ := h.call hcalls.1
    obtain ⟨hrest, hrestApart⟩ := ih hconsistent hcalls.2
    refine ⟨hrest, fun owner howner => ?_⟩
    rw [List.forall_mem_cons] at howner
    exact (hapart owner howner.1).trans (hrestApart owner howner.2)

end Consistent

theorem EmptyRoot.consistent (h : s.EmptyRoot d) : s.Consistent d fun _ => {} where
  direct := h.direct
  tells := by
    intro owner _
    exact .of_none (h.empty (owner :: [manifestName]) (List.cons_ne_nil _ _))

end Mockup.Store
