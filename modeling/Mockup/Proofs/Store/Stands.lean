import Mockup.Proofs.Store.Ledger

/-! What a publication that goes through leaves: the bundle that it found, or the one that it put in
place. -/

namespace Mockup.Store

open Files Path Disk

variable {s : Store} {d d' : Disk} {owner spare time : String} {spec : Spec} {l : Ledger}
  {m : Manifest} {bundle : Bundle} {b : PublishedBundle} {previous : Option Manifest}

/-- The owner has a manifest, and the bundle that it tells of stands for the specification. -/
structure Stands (s : Store) (owner : String) (d : Disk) (spec : Spec) (m : Manifest) : Prop where
  placed : s.Placed owner m
  noted : ∃ text, s.Noted owner d text ∧ Manifest.parse text = .ok m
  isOpen : d.IsOpen m.path
  markup : d.entry? (s.place d owner [m.slug, Bundle.markupFile]) ≠ none
  same : m.spec.same spec = true

namespace Stands

theorem of_apart (h : s.Stands owner d spec m) (hapart : s.Apart owner d d') :
    s.Stands owner d' spec m where
  placed := h.placed
  noted := by
    obtain ⟨text, hnoted, hparse⟩ := h.noted
    exact ⟨text, hnoted.of_apart h.placed.isOwner hapart, hparse⟩
  isOpen := hapart.isOpen_placed h.placed h.isOpen
  markup := by
    rw [place_congr hapart.home, hapart.entries]
    exact h.markup
  same := h.same

theorem isCurrent (h : s.Stands owner d spec m) : Store.isCurrent d spec m = true := by
  obtain ⟨x, hx⟩ := Option.ne_none_iff_exists'.mp h.markup
  have hentry : d.entry? (d.site m.path ++ [Bundle.markupFile]) = some x := by
    rw [h.placed.site, place_append]
    exact hx
  have hhas := has_join (isName_of_mem_fileNames (by decide)) h.isOpen (by decide) hentry
  rw [Store.isCurrent, h.same, hhas]
  rfl

theorem publish (h : s.Stands owner d spec m) (spare time : String) :
    s.publish d spare time owner spec = (.ok ⟨m.slug, m.publicUrl, m.path, true⟩, d) := by
  obtain ⟨text, hnoted, hparse⟩ := h.noted
  have hload : s.loadManifest d owner = .ok (some m) := by
    rw [hnoted.load h.placed.isOwner, hparse]
    rfl
  rcases publish_cases h.placed.isOwner hload spare time spec with
    ⟨m', hm', -, -, hpublish⟩ | ⟨hnone, -⟩
  · cases hm'
    exact hpublish
  · rw [Option.filter_some, if_pos h.isCurrent] at hnone
    cases hnone

end Stands

theorem Installed.noted (h : s.Installed owner bundle m d) (hm : s.Placed owner m) :
    s.Noted owner d m.indented :=
  ⟨hm.isOpen_owner h.isOpen, h.manifest⟩

theorem Placed.reads (hm : s.Placed owner m) (hopen : d.IsOpen m.path)
    (hfiles : ∀ f ∈ bundle.files, d.entry? (s.place d owner [m.slug, f.1]) = some (.file f.2)) :
    ∀ f ∈ bundle.files, d.read (m.path.join f.1) = .ok f.2 := by
  intro f hf
  refine read_join (isName_of_mem_files hf) hopen (not_isTooLong_of_mem_files hf) ?_
  rw [hm.site, place_append]
  exact hfiles f hf

namespace Tells

theorem stands_of_current (h : s.Tells owner d l) (howner : isOwner owner = true)
    (hload : s.loadManifest d owner = .ok (some m)) (hcurrent : isCurrent d spec m = true) :
    s.Stands owner d spec m := by
  obtain ⟨m', hm', hparse⟩ := h.parse_of_load howner hload rfl
  have hplaced := h.placed_of_load howner hload m rfl
  obtain ⟨hsame, hhas⟩ := Bool.and_eq_true _ _ ▸ hcurrent
  obtain ⟨hopen, hmarkup⟩ := isOpen_of_has (isName_of_mem_fileNames (by decide)) hhas
  rw [hplaced.site, place_append] at hmarkup
  exact ⟨hplaced, ⟨m'.indented, h.noted hm', hparse⟩, hopen, hmarkup, hsame⟩

theorem stands_or_installed (h : s.Tells owner d l) (hdirect : s.Direct d)
    (hspare : Slug.IsSlug spare) (hload : s.loadManifest d owner = .ok previous)
    (hpublish : s.publish d spare time owner spec = (.ok b, d')) :
    (∃ m, previous = some m ∧ s.Stands owner d spec m ∧ d' = d ∧
        b = ⟨m.slug, m.publicUrl, m.path, true⟩) ∨
      ∃ m, m.spec = spec ∧ s.Placed owner m ∧ s.Installed owner (Bundle.compile spare spec) m d' ∧
        b = ⟨m.slug, m.publicUrl, m.path, false⟩ := by
  obtain ⟨howner, -⟩ := load_of_publish hpublish
  rcases publish_cases howner hload spare time spec with
    ⟨m, hm, hcurrent, -, hpublish'⟩ | ⟨-, hacts, hpublish'⟩
  · rw [hpublish] at hpublish'
    cases hpublish'
    cases hm
    exact .inl ⟨m, rfl, h.stands_of_current howner hload hcurrent, rfl, rfl⟩
  · have hm := placed_manifestFor (s := s) howner hspare time spec
    have hspec := s.spec_manifestFor spare time owner spec
    -- of the new manifest, no more is used than where it is and what it is for
    generalize s.manifestFor spare time owner spec = m at hm hspec hacts hpublish'
    rw [hpublish'] at hpublish
    rcases hrun : runActs d (s.acts d spare time owner spec) with ⟨d₁, _ | e⟩
    · rw [hrun] at hpublish
      cases hpublish
      rw [hacts] at hrun
      obtain ⟨-, hinstalled⟩ :=
        installed_of_runActs hm (h.placed_of_load howner hload) hdirect hrun
      exact .inr ⟨m, hspec, hm, hinstalled, rfl⟩
    · rw [hrun] at hpublish
      cases hpublish

end Tells

end Mockup.Store
