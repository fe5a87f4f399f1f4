import Mockup.Files.Step
import Mockup.Proofs.Files.Disk

/-! What steps do to a disk. Making directories adds directories where nothing was and nothing
else; the other steps on an entry of an open path change what is at or below its place. -/

namespace Mockup.Files

open Files.Path

namespace Disk

variable {d d' : Disk} {l : Location} {p : Path} {e : String}

/-- From one disk to the other, directories were added at some of the places. -/
structure Widens (places : List Location) (d d' : Disk) : Prop where
  home : d'.home = d.home
  entries : ∀ k, d'.entry? k = d.entry? k ∨
    (k ∈ places ∧ d.entry? k = none ∧ d'.entry? k = some .dir)

theorem Widens.entry?_eq {places : List Location} {k : Location} (h : Widens places d d')
    (hk : k ∉ places) : d'.entry? k = d.entry? k :=
  (h.entries k).resolve_right fun hadd => hk hadd.1

theorem Widens.of_some {places : List Location} {k : Location} {x : Entry}
    (h : Widens places d d') (hk : d.entry? k = some x) : d'.entry? k = some x := by
  rcases h.entries k with heq | ⟨-, hnone, -⟩
  · rw [heq, hk]
  · rw [hnone] at hk
    cases hk

theorem Widens.refl (places : List Location) (d : Disk) : Widens places d d :=
  ⟨rfl, fun _ => .inl rfl⟩

theorem widens_makeDirs (d : Disk) (l : Location) (ps : List String) :
    Widens (ps.scanl onward l).tail d (d.makeDirs l ps).1 := by
  induction ps generalizing d l with
  | nil => exact ⟨rfl, fun _ => .inl rfl⟩
  | cons piece rest ih =>
    have htail : (rest.scanl onward (onward l piece)) =
        onward l piece :: (rest.scanl onward (onward l piece)).tail := by
      cases rest <;> simp
    rw [List.scanl_cons, List.tail_cons, htail]
    cases hentry : d.entry? (onward l piece) with
    | none =>
      simp only [makeDirs, hentry]
      split
      · exact ⟨rfl, fun _ => .inl rfl⟩
      · have hne : onward l piece ≠ [] := ne_nil_of_not_dir (d := d) (by simp [hentry])
        -- the directory made here is there for the rest, which makes none in its place
        obtain ⟨hhome, hentries⟩ := ih (d.set (onward l piece) .dir) (onward l piece)
        refine ⟨hhome, fun k => ?_⟩
        rcases hentries k with heq | ⟨hk, hbefore, hafter⟩
        · rw [heq, entry?_set hne]
          by_cases hk : k = onward l piece
          · subst hk
            exact .inr ⟨List.mem_cons_self, hentry, if_pos rfl⟩
          · exact .inl (if_neg hk)
        · rw [entry?_set hne] at hbefore
          split at hbefore
          · cases hbefore
          · exact .inr ⟨List.mem_cons_of_mem _ hk, hbefore, hafter⟩
    | some x =>
      cases x with
      | file text =>
        simp only [makeDirs, hentry]
        exact ⟨rfl, fun _ => .inl rfl⟩
      | dir =>
        obtain ⟨hhome, hentries⟩ := ih d (onward l piece)
        simp only [makeDirs, hentry]
        exact ⟨hhome, fun k => (hentries k).imp_right fun h => ⟨List.mem_cons_of_mem _ h.1, h.2⟩⟩

theorem site_ne_nil (d : Disk) (p : Path) (e : String) : d.site p ++ [e] ≠ [] := by simp

theorem put_join (h : IsName e) {text : Option String → String}
    (hput : d.put (p.join e) text = (d', none)) :
    d.IsOpen p ∧ isTooLong e = false ∧ d.entry? (d.site p ++ [e]) ≠ some .dir ∧
      ∃ old, d' = d.set (d.site p ++ [e]) (.file (text old)) := by
  unfold put at hput
  cases hlocate : d.locate (p.join e) with
  | error f => simp [hlocate] at hput
  | ok l =>
    obtain ⟨hopen, he, rfl⟩ := (locate_join h).mp hlocate
    refine ⟨hopen, he, ?_⟩
    cases hentry : d.entry? (d.site p ++ [e]) with
    | none =>
      simp only [hlocate, hentry, Prod.mk.injEq, and_true] at hput
      exact ⟨nofun, none, hput.symm⟩
    | some x =>
      cases x with
      | dir => simp [hlocate, hentry] at hput
      | file old =>
        simp only [hlocate, hentry, Prod.mk.injEq, and_true] at hput
        exact ⟨nofun, some old, hput.symm⟩

theorem write_join (h : IsName e) {text : String}
    (hrun : Step.run d (.write (p.join e) text) = (d', none)) :
    d.IsOpen p ∧ isTooLong e = false ∧ d.entry? (d.site p ++ [e]) ≠ some .dir ∧
      d' = d.set (d.site p ++ [e]) (.file text) := by
  have hput : d.put (p.join e) (fun _ => text) = (d', none) := hrun
  obtain ⟨hopen, he, hfree, -, hset⟩ := put_join h hput
  exact ⟨hopen, he, hfree, hset⟩

theorem removeDir_join (h : IsName e) (hopen : d.IsOpen (p.join e)) :
    d.removeDir (p.join e) = (d.removeTree (d.site p ++ [e]), none) := by
  obtain ⟨hp, he, hdir⟩ := (isOpen_join h).mp hopen
  unfold removeDir
  simp only [(locate_join h).mpr ⟨hp, he, rfl⟩, hdir, endsInDot_join h, Bool.false_eq_true, if_false]

theorem discard_join (h : IsName e) (hopen : d.IsOpen (p.join e)) :
    Step.run d (.discard (p.join e)) = (d.removeTree (d.site p ++ [e]), none) := by
  obtain ⟨hp, he, hdir⟩ := (isOpen_join h).mp hopen
  rw [Step.run, if_pos (has_join h hp he hdir), removeDir_join h hopen]

theorem put_join_cases (h : IsName e) (text : Option String → String) :
    (∃ t, d.put (p.join e) text = (d.set (d.site p ++ [e]) (.file t), none)) ∨
      ∃ f, d.put (p.join e) text = (d, some f) := by
  unfold put
  cases hlocate : d.locate (p.join e) with
  | error f => exact .inr ⟨f, rfl⟩
  | ok l =>
    obtain ⟨-, -, rfl⟩ := (locate_join h).mp hlocate
    dsimp only
    split
    · exact .inr ⟨_, rfl⟩
    · exact .inl ⟨_, rfl⟩
    · exact .inl ⟨_, rfl⟩

theorem removeDir_join_cases (h : IsName e) :
    d.removeDir (p.join e) = (d.removeTree (d.site p ++ [e]), none) ∨
      ∃ f, d.removeDir (p.join e) = (d, some f) := by
  unfold removeDir
  cases hlocate : d.locate (p.join e) with
  | error f => exact .inr ⟨f, rfl⟩
  | ok l =>
    obtain ⟨-, -, rfl⟩ := (locate_join h).mp hlocate
    simp only [endsInDot_join h, Bool.false_eq_true, if_false]
    split
    · exact .inl rfl
    · exact .inr ⟨_, rfl⟩
    · exact .inr ⟨_, rfl⟩

theorem discard_join_cases (h : IsName e) :
    (Step.run d (.discard (p.join e))).1 = d.removeTree (d.site p ++ [e]) ∨
      (Step.run d (.discard (p.join e))).1 = d := by
  rw [Step.run]
  split
  · rcases removeDir_join_cases (d := d) (p := p) h with hremoved | ⟨f, hkept⟩
    · exact .inl (by rw [hremoved])
    · exact .inr (by rw [hkept])
  · exact .inr rfl

theorem widens_run_makeDirs (h : IsName e) :
    Widens (d.stops (p.join e)) d (Step.run d (.makeDirs (p.join e))).1 := by
  have hpieces : (p.join e).pieces = (p.join e).stem := by rw [pieces_join h, stem_join h]
  simp only [Step.run, stops]
  split
  · exact ⟨rfl, fun _ => .inl rfl⟩
  · split
    · exact ⟨rfl, fun _ => .inl rfl⟩
    · rw [hpieces]
      obtain ⟨hhome, hentries⟩ := widens_makeDirs d (d.start (p.join e)) (p.join e).stem
      exact ⟨hhome, fun k => (hentries k).imp_right fun hk => ⟨List.mem_of_mem_tail hk.1, hk.2⟩⟩

end Disk

variable {ε : Type} {d d' : Disk}

theorem perform_run_eq_none {step : Step} {failure : Fault → ε}
    (h : (Act.perform step failure).run d = (d', none)) : step.run d = (d', none) := by
  simp only [Act.run] at h
  split at h
  · next hrun => rw [hrun, (Prod.mk.inj h).1]
  · cases h

theorem perform_run_fst (d : Disk) (step : Step) (failure : Fault → ε) :
    ((Act.perform step failure).run d).1 = (step.run d).1 := by
  simp only [Act.run]
  split
  · next hrun => rw [hrun]
  · next hrun => rw [hrun]

/-- A relation between disks that each act keeps is kept by all of them, up to where they end. -/
theorem runActs_induction {R : Disk → Disk → Prop} (hrefl : ∀ d, R d d)
    (htrans : ∀ d d₁ d', R d d₁ → R d₁ d' → R d d') {as : List (Act ε)}
    (h : ∀ a ∈ as, ∀ d, R d (a.run d).1) (d : Disk) : R d (runActs d as).1 := by
  induction as generalizing d with
  | nil => exact hrefl d
  | cons a rest ih =>
    obtain ⟨ha, hrest⟩ := List.forall_mem_cons.mp h
    have hfirst := ha d
    rw [runActs]
    split
    · next d₁ hrun =>
      rw [hrun] at hfirst
      exact htrans d d₁ _ hfirst (ih hrest d₁)
    · next d₁ e hrun =>
      rw [hrun] at hfirst
      exact hfirst

theorem runActs_cons_eq_none {a : Act ε} {rest : List (Act ε)} :
    runActs d (a :: rest) = (d', none) ↔
      ∃ d₁, a.run d = (d₁, none) ∧ runActs d₁ rest = (d', none) := by
  rw [runActs]
  rcases a.run d with ⟨d₁, _ | e⟩ <;> simp

theorem runActs_append (d : Disk) (as bs : List (Act ε)) :
    runActs d (as ++ bs) =
      match runActs d as with
      | (d₁, none) => runActs d₁ bs
      | (d₁, some e) => (d₁, some e) := by
  induction as generalizing d with
  | nil => rfl
  | cons a rest ih =>
    rw [List.cons_append, runActs, runActs]
    rcases a.run d with ⟨d₁, _ | e⟩
    · exact ih d₁
    · rfl

theorem runActs_append_eq_none {as bs : List (Act ε)} :
    runActs d (as ++ bs) = (d', none) ↔
      ∃ d₁, runActs d as = (d₁, none) ∧ runActs d₁ bs = (d', none) := by
  rw [runActs_append]
  rcases runActs d as with ⟨d₁, _ | e⟩ <;> simp

theorem fst_runActs_of_concat {as : List (Act ε)} {a : Act ε} {e : ε}
    (hlast : ∀ d d' e, a.run d = (d', some e) → d' = d)
    (h : runActs d (as ++ [a]) = (d', some e)) : d' = (runActs d as).1 := by
  rw [runActs_append] at h
  rcases hrun : runActs d as with ⟨d₁, _ | e'⟩
  · rw [hrun] at h
    rcases ha : a.run d₁ with ⟨d₂, _ | e₂⟩
    · simp [runActs, ha] at h
    · simp only [runActs, ha, Prod.mk.injEq] at h
      rw [← h.1]
      exact hlast d₁ d₂ e₂ ha
  · rw [hrun] at h
    exact (Prod.mk.inj h).1.symm

theorem error_of_runActs {as : List (Act ε)} {e : ε} (h : runActs d as = (d', some e)) :
    .refuse e ∈ as ∨ ∃ step failure f, Act.perform step failure ∈ as ∧ e = failure f := by
  induction as generalizing d with
  | nil => cases h
  | cons a rest ih =>
    rw [runActs] at h
    split at h
    · rcases ih h with hrefuse | ⟨step, failure, f, hmem, he⟩
      · exact .inl (List.mem_cons_of_mem _ hrefuse)
      · exact .inr ⟨step, failure, f, List.mem_cons_of_mem _ hmem, he⟩
    · next hrun =>
      cases h
      cases a with
      | refuse e' =>
        cases hrun
        exact .inl List.mem_cons_self
      | perform step failure =>
        simp only [Act.run] at hrun
        split at hrun
        · cases hrun
        · cases hrun
          exact .inr ⟨step, failure, _, List.mem_cons_self, rfl⟩

end Mockup.Files
