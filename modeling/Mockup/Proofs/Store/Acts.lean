import Mockup.Proofs.Bundle.Slug
import Mockup.Proofs.Files.Step
import Mockup.Store.Basic

/-! What the acts of the store come to when none of them fails. -/

namespace Mockup.Store

open Files Path Disk

variable {d d' : Disk} {p : Path} {fs : List (String × String)} {b : Bundle}

/-- From one disk to the other, files were written into the directory at a path. -/
structure Written (p : Path) (fs : List (String × String)) (d d' : Disk) : Prop where
  home : d'.home = d.home
  isOpen : fs ≠ [] → d.IsOpen p
  dirs : ∀ k, d.entry? k = some .dir → d'.entry? k = some .dir
  files : ∀ f ∈ fs, d'.entry? (d.site p ++ [f.1]) = some (.file f.2)
  others : ∀ k, (∀ f ∈ fs, k ≠ d.site p ++ [f.1]) → d'.entry? k = d.entry? k

theorem written_of_runActs (hnames : ∀ f ∈ fs, IsName f.1) (hnodup : (fs.map Prod.fst).Nodup)
    (h : runActs d (fs.map fun f => writing (p.join f.1) f.2) = (d', none)) :
    Written p fs d d' := by
  induction fs generalizing d with
  | nil =>
    obtain rfl : d = d' := (Prod.mk.inj h).1
    exact ⟨rfl, fun hne => absurd rfl hne, fun _ hk => hk, nofun, fun _ _ => rfl⟩
  | cons f rest ih =>
    obtain ⟨hf, hnames⟩ := List.forall_mem_cons.mp hnames
    obtain ⟨hnew, hnodup⟩ := List.nodup_cons.mp hnodup
    obtain ⟨d₁, hwrite, hrest⟩ := runActs_cons_eq_none.mp h
    obtain ⟨hopen, -, hfree, rfl⟩ := write_join hf (perform_run_eq_none hwrite)
    obtain ⟨hhome, -, hdirs, hfiles, hothers⟩ := ih hnames hnodup hrest
    have hsite : (d.set (d.site p ++ [f.1]) (.file f.2)).site p = d.site p := rfl
    have hset := entry?_set (site_ne_nil d p f.1) d (.file f.2)
    rw [hsite] at hfiles hothers
    refine ⟨hhome, fun _ => hopen, fun k hk => hdirs k ?_, fun g hg => ?_, fun k hk => ?_⟩
    · rw [hset, if_neg]
      · exact hk
      · rintro rfl
        exact hfree hk
    · rcases List.mem_cons.mp hg with rfl | hg
      · -- the names after it are others, so the file stays as it was written
        rw [hothers, hset, if_pos rfl]
        intro g' hg' heq
        have hname : g.1 = g'.1 := by simpa using heq
        exact hnew (List.mem_map.mpr ⟨g', hg', hname.symm⟩)
      · exact hfiles g hg
    · obtain ⟨hne, hk⟩ := List.forall_mem_cons.mp hk
      rw [hothers k hk, hset, if_neg hne]

/-- From one disk to the other, a bundle was put into the directory at a path. -/
structure Stored (p : Path) (b : Bundle) (d d' : Disk) : Prop where
  home : d'.home = d.home
  isOpen : d'.IsOpen p
  dirs : ∀ k, d.entry? k = some .dir → d'.entry? k = some .dir
  files : ∀ f ∈ b.files, d'.entry? (d.site p ++ [f.1]) = some (.file f.2)
  others : ∀ k, (∀ f ∈ b.files, k ≠ d.site p ++ [f.1]) → k ∉ d.stops p → d'.entry? k = d.entry? k

def fileNames : List String := [Bundle.markupFile, Bundle.stylesheetFile, Bundle.scriptFile]

theorem map_fst_files (b : Bundle) : b.files.map Prod.fst = fileNames := rfl

theorem isName_of_mem_fileNames {name : String} (h : name ∈ fileNames) : IsName name := by
  simp only [fileNames, List.mem_cons, List.not_mem_nil, or_false] at h
  rcases h with rfl | rfl | rfl <;> exact ⟨by decide, by decide, by decide, by decide⟩

theorem isName_of_mem_files {f : String × String} (h : f ∈ b.files) : IsName f.1 :=
  isName_of_mem_fileNames (map_fst_files b ▸ List.mem_map_of_mem h)

theorem not_isTooLong_of_mem_files {f : String × String} (h : f ∈ b.files) :
    isTooLong f.1 = false := by
  have hname : f.1 ∈ fileNames := map_fst_files b ▸ List.mem_map_of_mem h
  simp only [fileNames, List.mem_cons, List.not_mem_nil, or_false] at hname
  rcases hname with heq | heq | heq <;> rw [heq] <;> decide

theorem nodup_files (b : Bundle) : (b.files.map Prod.fst).Nodup := by
  rw [map_fst_files]
  decide

/-- The three files of a bundle can be read in the directory at a path. -/
structure IsAt (d : Disk) (p : Path) (b : Bundle) : Prop where
  markup : d.read (p.join "index.html") = .ok b.markup
  stylesheet : d.read (p.join "styles.css") = .ok b.stylesheet
  script : d.read (p.join "app.js") = .ok b.script

theorem isAt_of_files (h : ∀ f ∈ b.files, d.read (p.join f.1) = .ok f.2) : IsAt d p b := by
  simp only [Bundle.files, List.forall_mem_cons] at h
  exact ⟨h.1, h.2.1, h.2.2.1⟩

theorem mem_files_iff {f : String × String} :
    f ∈ b.files ↔ f = ("index.html", b.markup) ∨ f = ("styles.css", b.stylesheet) ∨
      f = ("app.js", b.script) := by
  simp only [Bundle.files, List.mem_cons, List.not_mem_nil, or_false]
  rfl

theorem stored_of_runActs {e : String} (he : IsName e)
    (h : runActs d (storing (p.join e) b) = (d', none)) : Stored (p.join e) b d d' := by
  obtain ⟨d₁, hmake, hwrites⟩ := runActs_cons_eq_none.mp h
  have hwidens : Widens (d.stops (p.join e)) d d₁ := by
    have hrun := widens_run_makeDirs (d := d) (p := p) he
    rwa [perform_run_eq_none hmake] at hrun
  obtain ⟨hhome, hopen, hdirs, hfiles, hothers⟩ :=
    written_of_runActs (fun f => isName_of_mem_files) (nodup_files b) hwrites
  rw [site_congr hwidens.home] at hfiles hothers
  refine ⟨hhome.trans hwidens.home, ?_, fun k hk => hdirs k (hwidens.of_some hk), hfiles,
    fun k hfree hstop => (hothers k hfree).trans (hwidens.entry?_eq hstop)⟩
  exact (hopen (List.cons_ne_nil _ _)).mono hhome fun k _ => hdirs k

end Mockup.Store
