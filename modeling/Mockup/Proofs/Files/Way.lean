import Mockup.Proofs.Files.Agree

/-! The way to a path. Directories on it that were made before are not made again, so the way may be
made as far as it can be ahead of all else. -/

namespace Mockup.Files.Disk

open Files.Path

variable {d d' : Disk} {l k : Location} {p : Path} {ps qs : List String} {a b : String}

theorem makeDirs_of_dir {piece : String} (h : d.entry? (onward l piece) = some .dir) :
    d.makeDirs l (piece :: ps) = d.makeDirs (onward l piece) ps := by
  rw [makeDirs, h]

theorem makeDirs_makeDirs (d : Disk) (l : Location) (ps qs : List String) :
    (d.makeDirs l ps).1.makeDirs l (ps ++ qs) = d.makeDirs l (ps ++ qs) := by
  induction ps generalizing d l with
  | nil => rfl
  | cons piece rest ih =>
    have hdir {d : Disk} (h : d.entry? (onward l piece) = some .dir) :
        (d.makeDirs (onward l piece) rest).1.makeDirs l (piece :: (rest ++ qs)) =
          d.makeDirs (onward l piece) (rest ++ qs) := by
      rw [makeDirs_of_dir ((widens_makeDirs _ _ _).of_some h), ih]
    cases hentry : d.entry? (onward l piece) with
    | none =>
      by_cases hlong : isTooLong piece
      · simp only [makeDirs, hentry, hlong, if_true]
      · have hne : onward l piece ≠ [] := ne_nil_of_not_dir (d := d) (by simp [hentry])
        have hset : Disk.entry? (d.set (onward l piece) .dir) (onward l piece) = some .dir := by
          rw [entry?_set hne, if_pos rfl]
        have hmake (qs : List String) : d.makeDirs l (piece :: qs) =
            (d.set (onward l piece) .dir).makeDirs (onward l piece) qs := by
          simp only [makeDirs, hentry, hlong, Bool.false_eq_true, if_false]
        rw [List.cons_append, hmake, hmake, hdir hset]
    | some x =>
      cases x with
      | file text => simp only [makeDirs, hentry, List.cons_append]
      | dir => rw [List.cons_append, makeDirs_of_dir hentry, makeDirs_of_dir hentry, hdir hentry]

theorem entry?_makeDirs_append (h : ∀ k, Disk.entry? (d.makeDirs l ps).1 k = d.entry? k)
    (hk : k ∉ (qs.scanl onward (ps.foldl onward l)).tail) :
    Disk.entry? (d.makeDirs l (ps ++ qs)).1 k = d.entry? k := by
  induction ps generalizing l with
  | nil => exact Widens.entry?_eq (widens_makeDirs d l qs) hk
  | cons piece rest ih =>
    rw [List.cons_append]
    cases hentry : d.entry? (onward l piece) with
    | none =>
      by_cases hlong : isTooLong piece
      · simp only [makeDirs, hentry, hlong, if_true]
      · -- the directory would have been made
        have hne : onward l piece ≠ [] := ne_nil_of_not_dir (d := d) (by simp [hentry])
        have hset : Disk.entry? (d.set (onward l piece) .dir) (onward l piece) = some .dir := by
          rw [entry?_set hne, if_pos rfl]
        have hmade := h (onward l piece)
        simp only [makeDirs, hentry, hlong, Bool.false_eq_true, if_false,
          (widens_makeDirs _ _ _).of_some hset] at hmade
        cases hmade
    | some x =>
      cases x with
      | file text => simp only [makeDirs, hentry]
      | dir =>
        rw [makeDirs_of_dir hentry]
        simp only [makeDirs_of_dir hentry] at h
        exact ih h hk

def paved (d : Disk) (p : Path) : Disk :=
  if p.hasNul then d else (d.makeDirs (d.start p) p.stem).1

/-- The way is made as far as it can be. -/
def Paved (d : Disk) (p : Path) : Prop := ∀ k, Disk.entry? (d.paved p) k = d.entry? k

theorem widens_paved (d : Disk) (p : Path) : Widens (d.stops p) d (d.paved p) := by
  unfold paved
  split
  · exact ⟨rfl, fun _ => .inl rfl⟩
  · obtain ⟨hhome, hentries⟩ := widens_makeDirs d (d.start p) p.stem
    exact ⟨hhome, fun k => (hentries k).imp_right fun hk => ⟨List.mem_of_mem_tail hk.1, hk.2⟩⟩

theorem pieces_join_join (ha : IsName a) (hb : IsName b) :
    ((p.join a).join b).pieces = p.stem ++ [a, b] := by
  rw [pieces_join hb, stem_join ha, List.append_assoc]
  rfl

theorem run_makeDirs_join (ha : IsName a) (hb : IsName b) (d : Disk) :
    Step.run d (.makeDirs ((p.join a).join b)) =
      if p.hasNul then (d, some .nulInName)
      else d.makeDirs (d.start p) (p.stem ++ [a, b]) := by
  rw [Step.run, if_neg (text_join_ne_empty hb), hasNul_join hb, hasNul_join ha, start_join hb,
    start_join ha, pieces_join_join ha hb]

theorem start_paved (d : Disk) (p q : Path) : (d.paved p).start q = d.start q := by
  rw [start, start, (widens_paved d p).home]

theorem run_makeDirs_paved (ha : IsName a) (hb : IsName b) (d : Disk) :
    Step.run (d.paved p) (.makeDirs ((p.join a).join b)) =
      Step.run d (.makeDirs ((p.join a).join b)) := by
  rw [run_makeDirs_join ha hb, run_makeDirs_join ha hb, start_paved, paved]
  cases p.hasNul with
  | true => rfl
  | false => exact makeDirs_makeDirs _ _ _ _

theorem paved_paved (d : Disk) (p : Path) : (d.paved p).paved p = d.paved p := by
  have hstart := d.start_paved p p
  unfold paved at hstart ⊢
  split
  · rfl
  · next hnul =>
    rw [if_neg hnul] at hstart
    have htwice := makeDirs_makeDirs d (d.start p) p.stem []
    rw [List.append_nil] at htwice
    rw [hstart, htwice]

theorem Paved.of_agree (h : d.Paved p) (hagree : Agree {k | k ∈ d.stops p} d d') : d'.Paved p := by
  have hstart : d'.start p = d.start p := by rw [start, start, hagree.home]
  have hstops : d'.stops p = d.stops p := by rw [stops, stops, hstart]
  intro k
  by_cases hk : k ∈ d.stops p
  · have hmade : Disk.entry? (d'.paved p) k = Disk.entry? (d.paved p) k := by
      unfold paved
      split
      · exact hagree.entries k hk
      · rw [hstart]
        exact (hagree.makeDirs fun _ hj => hj).2.entries k hk
    rw [hmade, h k, hagree.entries k hk]
  · exact Widens.entry?_eq (widens_paved d' p) (hstops ▸ hk)

theorem Paved.entry?_run_makeDirs (h : d.Paved p) (ha : IsName a) (hb : IsName b)
    (hk : k ≠ d.site p ++ [a]) (hk' : k ≠ d.site p ++ [a, b]) :
    Disk.entry? (Step.run d (.makeDirs ((p.join a).join b))).1 k = d.entry? k := by
  rw [run_makeDirs_join ha hb]
  unfold Paved paved at h
  split
  · rfl
  · next hnul =>
    simp only [if_neg hnul] at h
    refine entry?_makeDirs_append h ?_
    have hpair : d.site p ++ [a] ++ [b] = d.site p ++ [a, b] := List.append_assoc _ _ _
    rw [List.scanl_cons, List.tail_cons, List.scanl_cons, List.scanl_nil, onward_name ha,
      onward_name hb]
    simp only [List.mem_cons, List.not_mem_nil, or_false]
    rintro (heq | heq)
    · exact hk heq
    · exact hk' (heq.trans hpair)

end Mockup.Files.Disk
