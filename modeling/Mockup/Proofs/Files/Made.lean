import Mockup.Proofs.Files.Step

/-! Directories that were made. On a disk that a system can have, a path is open once its directory
was made, and a file that was somewhere keeps its text. -/

namespace Mockup.Files.Disk

open Files.Path

variable {d d' : Disk} {l k : Location} {p : Path} {ps : List String} {e t : String} {x : Entry}

def Short (d : Disk) : Prop := ∀ p ∈ d.entries, ∀ name ∈ p.1, isTooLong name = false

structure Usable (d : Disk) : Prop where
  home : d.entry? d.home = some .dir
  short : d.Short

theorem Short.short_names (h : d.Short) (hl : d.entry? l = some x) :
    ∀ name ∈ l, isTooLong name = false := by
  unfold entry? at hl
  split at hl
  · next hnil =>
    subst hnil
    nofun
  · obtain ⟨before, after, hentries, -⟩ := List.lookup_eq_some_iff.mp hl
    exact h (l, x) (by simp [hentries])

theorem Short.set (h : d.Short) (hl : ∀ name ∈ l, isTooLong name = false) (x : Entry) :
    (d.set l x).Short := by
  intro p hp
  rcases List.mem_cons.mp hp with rfl | hp
  · exact hl
  · exact h p (List.mem_filter.mp hp).1

theorem mem_onward {piece name : String} (h : name ∈ onward l piece) : name ∈ l ∨ name = piece := by
  unfold onward at h
  split at h
  · exact .inl h
  · split at h
    · exact .inl (List.dropLast_subset l h)
    · exact (List.mem_append.mp h).imp_right List.mem_singleton.mp

theorem short_of_onward {piece : String} (h : ∀ name ∈ onward l piece, isTooLong name = false) :
    isTooLong piece = false := by
  unfold onward at h
  split at h
  · next htrivial =>
    simp only [isTrivial, Bool.or_eq_true, decide_eq_true_eq] at htrivial
    rcases htrivial with rfl | rfl <;> decide
  · split at h
    · next hparent =>
      subst hparent
      decide
    · exact h piece (List.mem_append_right _ (List.mem_singleton_self piece))

theorem makeDirs_cons_cases (hshort : d.Short) (hl : ∀ name ∈ l, isTooLong name = false)
    (piece : String) (ps : List String) :
    (∃ f, d.makeDirs l (piece :: ps) = (d, some f)) ∨
      ∃ d₁ : Disk, d₁.Short ∧ d₁.entry? (onward l piece) = some .dir ∧
        d.makeDirs l (piece :: ps) = d₁.makeDirs (onward l piece) ps := by
  rw [makeDirs]
  cases hentry : d.entry? (onward l piece) with
  | none =>
    dsimp only
    split
    · exact .inl ⟨_, rfl⟩
    · next hlong =>
      have hne : onward l piece ≠ [] := ne_nil_of_not_dir (d := d) (by simp [hentry])
      have hnext : ∀ name ∈ onward l piece, isTooLong name = false := by
        intro name hname
        rcases mem_onward hname with hmem | rfl
        · exact hl name hmem
        · simpa using hlong
      exact .inr ⟨d.set (onward l piece) .dir, hshort.set hnext .dir,
        (entry?_set hne d _ _).trans (if_pos rfl), rfl⟩
  | some x =>
    cases x with
    | file text => exact .inl ⟨_, rfl⟩
    | dir => exact .inr ⟨d, hshort, hentry, rfl⟩

theorem Short.makeDirs (h : d.Short) (hl : ∀ name ∈ l, isTooLong name = false) (ps : List String) :
    Short (d.makeDirs l ps).1 := by
  induction ps generalizing d l with
  | nil => exact h
  | cons piece rest ih =>
    rcases makeDirs_cons_cases h hl piece rest with ⟨f, hfail⟩ | ⟨d₁, hshort, hnext, hmake⟩
    · rw [hfail]
      exact h
    · rw [hmake]
      exact ih hshort (hshort.short_names hnext)

theorem entry?_of_makeDirs {f : Option Fault} (h : d.makeDirs l ps = (d', f))
    (hk : d.entry? k = some x) : d'.entry? k = some x := by
  have hwidens := widens_makeDirs d l ps
  rw [h] at hwidens
  exact hwidens.of_some hk

theorem dirs_of_makeDirs (hshort : d.Short) (hl : d.entry? l = some .dir)
    (h : d.makeDirs l ps = (d', none)) :
    (∀ k ∈ ps.scanl onward l, d'.entry? k = some .dir) ∧
      ∀ piece ∈ ps, isTooLong piece = false := by
  have hkept := entry?_of_makeDirs h hl
  induction ps generalizing d l with
  | nil => exact ⟨by simpa using hkept, nofun⟩
  | cons piece rest ih =>
    rcases makeDirs_cons_cases hshort (hshort.short_names hl) piece rest with
      ⟨f, hfail⟩ | ⟨d₁, hshort₁, hnext, hmake⟩
    · rw [h] at hfail
      cases hfail
    · have hrest : d₁.makeDirs (onward l piece) rest = (d', none) := hmake.symm.trans h
      obtain ⟨hdirs, hpieces⟩ := ih hshort₁ hnext hrest (entry?_of_makeDirs hrest hnext)
      rw [List.scanl_cons, List.forall_mem_cons, List.forall_mem_cons]
      exact ⟨⟨hkept, hdirs⟩, short_of_onward (hshort₁.short_names hnext), hpieces⟩

theorem Usable.start (h : d.Usable) (p : Path) : d.entry? (d.start p) = some .dir := by
  unfold Disk.start
  split
  · exact entry?_nil d
  · exact h.home

theorem Usable.set (h : d.Usable) (hl : ∀ name ∈ l, isTooLong name = false)
    (hfree : d.entry? l ≠ some .dir) (x : Entry) : (d.set l x).Usable :=
  ⟨dir_set hfree x h.home, h.short.set hl x⟩

theorem Usable.makeDirs (h : d.Usable) (he : IsName e) (p : Path) :
    Usable (Step.run d (.makeDirs (p.join e))).1 := by
  have hwidens := widens_run_makeDirs (d := d) (p := p) he
  refine ⟨?_, ?_⟩
  · rw [hwidens.home]
    exact hwidens.of_some h.home
  · rw [Step.run]
    split
    · exact h.short
    · split
      · exact h.short
      · exact h.short.makeDirs (h.short.short_names (h.start _)) _

theorem isOpen_of_makeDirs (h : d.Usable) (he : IsName e)
    (hmake : Step.run d (.makeDirs (p.join e)) = (d', none)) : d'.IsOpen (p.join e) := by
  have hwidens := widens_run_makeDirs (d := d) (p := p) he
  rw [hmake] at hwidens
  rw [Step.run, if_neg (text_join_ne_empty he)] at hmake
  split at hmake
  · cases hmake
  · next hnul =>
    rw [pieces_join he, ← stem_join he] at hmake
    obtain ⟨hdirs, hpieces⟩ := dirs_of_makeDirs h.short (h.start _) hmake
    refine ⟨by simpa using hnul, ?_, hpieces⟩
    rw [stops_congr hwidens.home]
    exact hdirs

def HasText (d : Disk) (l : Location) (t : String) : Prop :=
  d.entry? l = some (.file t) ∨ t = "" ∧ d.entry? l = none

theorem HasText.not_dir (h : d.HasText l t) : d.entry? l ≠ some .dir := by
  rcases h with hfile | ⟨-, hnone⟩
  · simp [hfile]
  · simp [hnone]

theorem HasText.widens {places : List Location} (h : d.HasText l t) (hw : Widens places d d')
    (hfree : d.entry? l = none → l ∉ places) : d'.HasText l t := by
  rcases h with hfile | ⟨hempty, hnone⟩
  · exact .inl (hw.of_some hfile)
  · exact .inr ⟨hempty, (hw.entry?_eq (hfree hnone)).trans hnone⟩

theorem hasText_set (hl : l ≠ []) (d : Disk) (t : String) : HasText (d.set l (.file t)) l t :=
  .inl ((entry?_set hl d _ l).trans (if_pos rfl))

end Mockup.Files.Disk
