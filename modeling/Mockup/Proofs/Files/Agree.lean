import Mathlib.Data.Set.Defs
import Mockup.Proofs.Files.Step

/-! Disks that agree at some places. A step that looks at no other places answers the same on both
and leaves them in agreement, and so do acts one after the other. -/

namespace Mockup.Files

namespace Disk

variable {d d' d₁ : Disk} {P Q : Set Location} {l k : Location} {p : Path} {ps : List String}

def looks (d : Disk) (p : Path) : List Location := p.pieces.scanl onward (d.start p)

theorem looks_congr (h : d'.home = d.home) (p : Path) : d'.looks p = d.looks p := by
  unfold looks start
  rw [h]

theorem looks_join {e : String} (h : Path.IsName e) (d : Disk) (p : Path) :
    d.looks (p.join e) = d.stops (p.join e) := by
  unfold looks stops
  rw [Path.pieces_join h, Path.stem_join h]

structure Agree (P : Set Location) (d d' : Disk) : Prop where
  home : d'.home = d.home
  entries : ∀ l ∈ P, d'.entry? l = d.entry? l

theorem entry?_filter (keep : Location → Bool) (d : Disk) (k : Location) :
    Disk.entry? { d with entries := d.entries.filter fun p => keep p.1 } k =
      if k = [] then some .dir else if keep k then d.entry? k else none := by
  unfold entry?
  by_cases hnil : k = []
  · rw [if_pos hnil, if_pos hnil]
  · rw [if_neg hnil, if_neg hnil, if_neg hnil, lookup_filter]

theorem mem_scanl_of_walk (h : d.walk l ps = .ok k) : k ∈ ps.scanl onward l := by
  induction ps generalizing l with
  | nil => exact List.mem_singleton.mpr (Except.ok.inj h).symm
  | cons piece rest ih =>
    rw [walk] at h
    split at h
    · split at h
      · cases h
      · rw [List.scanl_cons]
        exact List.mem_cons_of_mem _ (ih h)
    · cases h
    · cases h

theorem mem_looks_of_locate (h : d.locate p = .ok l) : l ∈ d.looks p := by
  unfold locate at h
  split at h
  · cases h
  · split at h
    · cases h
    · exact mem_scanl_of_walk h

namespace Agree

theorem refl (P : Set Location) (d : Disk) : Agree P d d := ⟨rfl, fun _ _ => rfl⟩

theorem symm (h : Agree P d d') : Agree P d' d := ⟨h.home.symm, fun l hl => (h.entries l hl).symm⟩

theorem trans (h : Agree P d d₁) (h' : Agree P d₁ d') : Agree P d d' :=
  ⟨h'.home.trans h.home, fun l hl => (h'.entries l hl).trans (h.entries l hl)⟩

theorem mono (h : Agree P d d') (hsub : ∀ l ∈ Q, l ∈ P) : Agree Q d d' :=
  ⟨h.home, fun l hl => h.entries l (hsub l hl)⟩

theorem filter (h : Agree P d d') (keep : Location → Bool) :
    Agree P { d with entries := d.entries.filter fun p => keep p.1 }
      { d' with entries := d'.entries.filter fun p => keep p.1 } :=
  ⟨h.home, fun l hl => by rw [entry?_filter, entry?_filter, h.entries l hl]⟩

theorem set (h : Agree P d d') (hl : l ≠ []) (x : Entry) : Agree P (d.set l x) (d'.set l x) :=
  ⟨h.home, fun k hk => by rw [entry?_set hl, entry?_set hl, h.entries k hk]⟩

theorem walk (h : Agree P d d') (hp : ∀ k ∈ ps.scanl onward l, k ∈ P) :
    d'.walk l ps = d.walk l ps := by
  induction ps generalizing l with
  | nil => rfl
  | cons piece rest ih =>
    rw [List.scanl_cons, List.forall_mem_cons] at hp
    simp only [Disk.walk, h.entries l hp.1, ih hp.2]

theorem locate (h : Agree P d d') (hp : ∀ k ∈ d.looks p, k ∈ P) : d'.locate p = d.locate p := by
  have hwalk : d'.walk (d.start p) p.pieces = d.walk (d.start p) p.pieces := h.walk hp
  unfold Disk.locate
  unfold start at hwalk ⊢
  rw [h.home, hwalk]

theorem entry?_of_locate (h : Agree P d d') (hp : ∀ k ∈ d.looks p, k ∈ P)
    (hl : d.locate p = .ok l) : d'.entry? l = d.entry? l :=
  h.entries l (hp l (mem_looks_of_locate hl))

theorem has (h : Agree P d d') (hp : ∀ k ∈ d.looks p, k ∈ P) : d'.has p = d.has p := by
  unfold Disk.has find?
  rw [h.locate hp]
  cases hl : d.locate p with
  | error f => rfl
  | ok l => simp [Except.toOption, h.entry?_of_locate hp hl]

theorem read (h : Agree P d d') (hp : ∀ k ∈ d.looks p, k ∈ P) : d'.read p = d.read p := by
  unfold Disk.read
  rw [h.locate hp]
  cases hl : d.locate p with
  | error f => rfl
  | ok l => simp only [h.entry?_of_locate hp hl]

theorem put (h : Agree P d d') (hp : ∀ k ∈ d.looks p, k ∈ P) (text : Option String → String) :
    (d'.put p text).2 = (d.put p text).2 ∧ Agree P (d.put p text).1 (d'.put p text).1 := by
  unfold Disk.put
  rw [h.locate hp]
  cases hl : d.locate p with
  | error f => exact ⟨rfl, h⟩
  | ok l =>
    dsimp only
    rw [h.entry?_of_locate hp hl]
    -- the top is a directory, so what is set is not the top
    cases hentry : d.entry? l with
    | none =>
      exact ⟨rfl, h.set (ne_nil_of_not_dir (d := d) (by simp [hentry])) _⟩
    | some x =>
      cases x with
      | dir => exact ⟨rfl, h⟩
      | file old => exact ⟨rfl, h.set (ne_nil_of_not_dir (d := d) (by simp [hentry])) _⟩

theorem removeDir (h : Agree P d d') (hp : ∀ k ∈ d.looks p, k ∈ P) :
    (d'.removeDir p).2 = (d.removeDir p).2 ∧ Agree P (d.removeDir p).1 (d'.removeDir p).1 := by
  unfold Disk.removeDir
  rw [h.locate hp]
  cases hl : d.locate p with
  | error f => exact ⟨rfl, h⟩
  | ok l =>
    dsimp only
    rw [h.entry?_of_locate hp hl]
    rcases d.entry? l with _ | _ | _
    · exact ⟨rfl, h⟩
    · exact ⟨rfl, h⟩
    · dsimp only
      split
      · exact ⟨rfl, h.filter fun k => k = l || !l.isPrefixOf k⟩
      · exact ⟨rfl, h.filter fun k => !l.isPrefixOf k⟩

theorem makeDirs (h : Agree P d d') (hp : ∀ k ∈ ps.scanl onward l, k ∈ P) :
    (d'.makeDirs l ps).2 = (d.makeDirs l ps).2 ∧
      Agree P (d.makeDirs l ps).1 (d'.makeDirs l ps).1 := by
  induction ps generalizing d d' l with
  | nil => exact ⟨rfl, h⟩
  | cons piece rest ih =>
    rw [List.scanl_cons, List.forall_mem_cons] at hp
    have hnext : onward l piece ∈ P := hp.2 _ (by cases rest <;> simp)
    simp only [Disk.makeDirs, h.entries _ hnext]
    cases hentry : d.entry? (onward l piece) with
    | none =>
      dsimp only
      split
      · exact ⟨rfl, h⟩
      · have hne : onward l piece ≠ [] := ne_nil_of_not_dir (d := d) (by simp [hentry])
        exact ih (h.set hne .dir) hp.2
    | some x =>
      cases x with
      | file text => exact ⟨rfl, h⟩
      | dir => exact ih h hp.2

end Agree

end Disk

def Step.path : Step → Path
  | .makeDirs p => p
  | .write p _ => p
  | .append p _ => p
  | .removeDir p => p
  | .discard p => p

def Act.path? {ε : Type} : Act ε → Option Path
  | .perform step _ => some step.path
  | .refuse _ => none

variable {ε : Type} {d d' : Disk} {P : Set Location}

theorem perform_run_snd (d : Disk) (step : Step) (failure : Fault → ε) :
    ((Act.perform step failure).run d).2 = (step.run d).2.map failure := by
  simp only [Act.run]
  rcases step.run d with ⟨d₁, _ | f⟩ <;> rfl

theorem home_run (d : Disk) (step : Step) : (step.run d).1.home = d.home := by
  have hput (p : Path) (text : Option String → String) : (d.put p text).1.home = d.home := by
    unfold Disk.put
    split
    · rfl
    · split <;> rfl
  have hremove (p : Path) : (d.removeDir p).1.home = d.home := by
    unfold Disk.removeDir
    split
    · rfl
    · split
      · split <;> rfl
      · rfl
      · rfl
  cases step with
  | makeDirs p =>
    rw [Step.run]
    split
    · rfl
    · split
      · rfl
      · exact (Disk.widens_makeDirs _ _ _).home
  | write p text => exact hput p _
  | append p text => exact hput p _
  | removeDir p => exact hremove p
  | discard p =>
    rw [Step.run]
    split
    · exact hremove p
    · rfl

theorem home_run_act (d : Disk) (a : Act ε) : (a.run d).1.home = d.home := by
  cases a with
  | refuse e => rfl
  | perform step failure => rw [perform_run_fst, home_run]

theorem home_runActs (d : Disk) (as : List (Act ε)) : (runActs d as).1.home = d.home :=
  runActs_induction (R := fun d d' => d'.home = d.home) (fun _ => rfl)
    (fun _ _ _ h h' => h'.trans h) (fun a _ d => home_run_act d a) d

namespace Disk.Agree

theorem run (h : Agree P d d') {step : Step} (hp : ∀ k ∈ d.looks step.path, k ∈ P) :
    (step.run d').2 = (step.run d).2 ∧ Agree P (step.run d).1 (step.run d').1 := by
  cases step with
  | makeDirs p =>
    have hstart : d'.start p = d.start p := by rw [start, start, h.home]
    simp only [Step.run, hstart]
    split
    · exact ⟨rfl, h⟩
    · split
      · exact ⟨rfl, h⟩
      · exact h.makeDirs hp
  | write p text => exact h.put hp _
  | append p text => exact h.put hp _
  | removeDir p => exact h.removeDir hp
  | discard p =>
    have hhas : d'.has p = d.has p := h.has hp
    simp only [Step.run, hhas]
    split
    · exact h.removeDir hp
    · exact ⟨rfl, h⟩

theorem run_act (h : Agree P d d') {a : Act ε} (hp : ∀ p ∈ a.path?, ∀ k ∈ d.looks p, k ∈ P) :
    (a.run d').2 = (a.run d).2 ∧ Agree P (a.run d).1 (a.run d').1 := by
  cases a with
  | refuse e => exact ⟨rfl, h⟩
  | perform step failure =>
    obtain ⟨hfault, hagree⟩ := h.run (hp step.path rfl)
    rw [perform_run_fst, perform_run_fst, perform_run_snd, perform_run_snd, hfault]
    exact ⟨rfl, hagree⟩

theorem runActs (h : Agree P d d') {as : List (Act ε)}
    (hp : ∀ a ∈ as, ∀ p ∈ a.path?, ∀ k ∈ d.looks p, k ∈ P) :
    (runActs d' as).2 = (runActs d as).2 ∧ Agree P (runActs d as).1 (runActs d' as).1 := by
  induction as generalizing d d' with
  | nil => exact ⟨rfl, h⟩
  | cons a rest ih =>
    rw [List.forall_mem_cons] at hp
    obtain ⟨hfault, hagree⟩ := h.run_act hp.1
    have hhome := home_run_act d a
    simp only [Files.runActs]
    rcases hrun : a.run d with ⟨d₁, e⟩
    rcases hrun' : a.run d' with ⟨d₁', e'⟩
    rw [hrun, hrun'] at hfault hagree
    rw [hrun] at hhome
    obtain rfl : e' = e := hfault
    cases e' with
    | some e => exact ⟨rfl, hagree⟩
    | none =>
      refine ih hagree fun b hb p hpath k hk => hp.2 b hb p hpath k ?_
      rwa [looks_congr hhome] at hk

end Disk.Agree

end Mockup.Files
