import Mockup.Proofs.Files.Step

/-! Paths inside a root. Wherever such a path leads, it leads to the place of the root and from there
down, so that no two paths inside a root lead to one place unless they are the same. The empty root
is an exception: every path that does not step up is inside it, also an absolute one. -/

namespace Mockup.Files

open Text

namespace Path

variable {p root : Path} {a b piece : String}

def steps (p : Path) : List String := p.pieces.filter (!isTrivial ·)

def isFront : Part → Bool
  | .root => true
  | .here => true
  | _ => false

theorem isFront_partOf (piece : String) : isFront (partOf piece) = false := by
  rw [partOf]
  split <;> rfl

theorem partOf_of_ne (h : piece ≠ "..") : partOf piece = .name piece := if_neg h

theorem eq_of_partOf (a b : String) (h : partOf a = partOf b) : a = b := by
  simp only [partOf] at h
  split at h <;> split at h
  · next ha hb => rw [ha, hb]
  · cases h
  · cases h
  · exact Part.name.inj h

theorem front_cases (p : Path) : p.front = [.root] ∨ p.front = [.here] ∨ p.front = [] := by
  unfold front
  split
  · exact .inl rfl
  · split
    · exact .inr (.inl rfl)
    · exact .inr (.inr rfl)

theorem isAbsolute_iff_front : p.isAbsolute = true ↔ p.front = [.root] := by
  unfold front
  split
  · next h => simp [h]
  · next h =>
    split <;> simp [h]

theorem head?_pieces (h : p.text ≠ "") (habsolute : p.isAbsolute = false) :
    p.pieces.head? ≠ some "" := by
  obtain ⟨c, cs, hcs⟩ := List.exists_cons_of_ne_nil fun hnil => h (String.toList_injective hnil)
  have hslash : c ≠ '/' := by
    rintro rfl
    simp [isAbsolute, hcs] at habsolute
  rw [pieces, hcs, splitAt, if_neg hslash]
  split <;> simp

theorem parts_ne_nil (h : p.text ≠ "") : p.parts ≠ [] := by
  intro hparts
  obtain ⟨hfront, hsteps⟩ := List.append_eq_nil_iff.mp hparts
  have habsolute : p.isAbsolute = false := by
    rw [← Bool.not_eq_true, isAbsolute_iff_front, hfront]
    exact List.cons_ne_nil _ _ ∘ Eq.symm
  have hdot : p.pieces.head? ≠ some "." := by
    intro hhead
    rw [front, habsolute, if_neg Bool.false_ne_true, if_pos hhead] at hfront
    cases hfront
  obtain ⟨piece, rest, hpieces⟩ := List.exists_cons_of_ne_nil
    fun hnil : p.pieces = [] => splitAt_ne_nil _ _ (List.map_eq_nil_iff.mp hnil)
  have hempty := head?_pieces h habsolute
  rw [hpieces, List.head?_cons] at hdot hempty
  -- the first piece is neither empty nor a dot, so it is a step
  have htrivial : isTrivial piece = false := by
    simp only [ne_eq, Option.some.injEq] at hdot hempty
    simp [isTrivial, hdot, hempty]
  rw [hpieces, List.map_eq_nil_iff, List.filter_cons_of_pos (by simp [htrivial])] at hsteps
  cases hsteps

theorem parts_eq (p : Path) : p.parts = p.front ++ p.steps.map partOf := rfl

theorem isInside_iff :
    root.isInside p = true ↔ ∃ rest, p.parts = root.parts ++ rest ∧ .parent ∉ rest := by
  unfold isInside below?
  constructor
  · intro h
    split at h
    · next rest hrest =>
      split at hrest
      · next hprefix =>
        obtain rfl := Option.some.inj hrest
        obtain ⟨rest, hparts⟩ := List.isPrefixOf_iff_prefix.mp hprefix
        refine ⟨rest, hparts.symm, ?_⟩
        rw [← hparts, List.drop_left] at h
        simpa using h
      · cases hrest
    · cases h
  · rintro ⟨rest, hparts, hparent⟩
    rw [hparts, if_pos (List.isPrefixOf_iff_prefix.mpr (List.prefix_append _ _)), List.drop_left]
    simpa using hparent

theorem front_eq (p : Path) : p.front = p.parts.head?.toList.filter isFront := by
  rw [parts_eq]
  rcases front_cases p with hfront | hfront | hfront <;> rw [hfront]
  · rfl
  · rfl
  · rw [List.nil_append, List.head?_map]
    cases p.steps.head? with
    | none => rfl
    | some piece => simp [isFront_partOf]

theorem exists_steps_of_isInside (hroot : root.text ≠ "") (h : root.isInside p = true) :
    ∃ names, p.front = root.front ∧ p.steps = root.steps ++ names ∧ ".." ∉ names := by
  obtain ⟨rest, hparts, hparent⟩ := isInside_iff.mp h
  have hfront : p.front = root.front := by
    obtain ⟨part, parts, hfirst⟩ := List.exists_cons_of_ne_nil (parts_ne_nil hroot)
    rw [front_eq, front_eq, hparts, hfirst]
    rfl
  rw [parts_eq, parts_eq, hfront, List.append_assoc] at hparts
  obtain ⟨before, names, hsteps, hbefore, rfl⟩ :=
    List.map_eq_append_iff.mp (List.append_cancel_left hparts)
  rw [(List.map_inj_right eq_of_partOf).mp hbefore] at hsteps
  exact ⟨names, hfront, hsteps, fun hmem => hparent (List.mem_map.mpr ⟨"..", hmem, rfl⟩)⟩

end Path

namespace Disk

open Files.Path

variable {d : Disk} {p root : Path} {l k : Location} {ps : List String} {a b : String}

theorem foldl_onward_filter (l : Location) (ps : List String) :
    (ps.filter (!isTrivial ·)).foldl onward l = ps.foldl onward l := by
  induction ps generalizing l with
  | nil => rfl
  | cons piece rest ih =>
    rw [List.foldl_cons]
    cases htrivial : isTrivial piece with
    | true => rw [List.filter_cons_of_neg (by simp [htrivial]), ih, onward, if_pos htrivial]
    | false => rw [List.filter_cons_of_pos (by simp [htrivial]), List.foldl_cons, ih]

theorem foldl_onward_of_down (htrivial : ∀ e ∈ ps, isTrivial e = false) (hparent : ".." ∉ ps) :
    ps.foldl onward l = l ++ ps := by
  induction ps generalizing l with
  | nil => exact (List.append_nil l).symm
  | cons piece rest ih =>
    obtain ⟨hpiece, hrest⟩ := List.forall_mem_cons.mp htrivial
    have honward : onward l piece = l ++ [piece] := by
      unfold onward
      rw [hpiece, if_neg Bool.false_ne_true, if_neg (List.ne_of_not_mem_cons hparent).symm]
    rw [List.foldl_cons, honward, ih hrest (List.not_mem_of_not_mem_cons hparent),
      List.append_assoc]
    rfl

theorem site_eq_foldl (d : Disk) (p : Path) : d.site p = p.steps.foldl onward (d.start p) := by
  unfold site
  rw [← foldl_onward_filter, filter_stem]
  rfl

theorem eq_foldl_of_walk (h : d.walk l ps = .ok k) : k = ps.foldl onward l := by
  induction ps generalizing l with
  | nil => exact (Except.ok.inj h).symm
  | cons piece rest ih =>
    rw [walk] at h
    split at h
    · split at h
      · cases h
      · exact ih h
    · cases h
    · cases h

theorem eq_site_of_locate (h : d.locate p = .ok l) : l = d.site p := by
  unfold locate at h
  split at h
  · cases h
  · split at h
    · cases h
    · rw [eq_foldl_of_walk h, site_eq_foldl, steps, foldl_onward_filter]

theorem start_congr (h : p.front = root.front) : d.start p = d.start root := by
  have habsolute : p.isAbsolute = root.isAbsolute := by
    rw [Bool.eq_iff_iff, isAbsolute_iff_front, isAbsolute_iff_front, h]
  unfold start
  rw [habsolute]

/-- A path inside a root leads down from the place of the root, by the names it adds. -/
theorem exists_names_of_isInside (hroot : root.text ≠ "") (h : root.isInside p = true) :
    ∃ names, p.parts = root.parts ++ names.map .name ∧
      ∀ d : Disk, d.site p = d.site root ++ names := by
  obtain ⟨names, hfront, hsteps, hparent⟩ := exists_steps_of_isInside hroot h
  have htrivial : ∀ e ∈ names, isTrivial e = false := by
    intro e he
    have hmem : e ∈ p.steps := hsteps ▸ List.mem_append_right _ he
    simpa using (List.mem_filter.mp hmem).2
  refine ⟨names, ?_, fun d => ?_⟩
  · have hnames : names.map partOf = names.map .name :=
      List.map_congr_left fun e he => partOf_of_ne fun heq => hparent (heq ▸ he)
    rw [parts_eq, parts_eq, hfront, hsteps, List.map_append, hnames, List.append_assoc]
  · rw [site_eq_foldl, hsteps, List.foldl_append, start_congr hfront, ← site_eq_foldl,
      foldl_onward_of_down htrivial hparent]

/-- Of the paths inside a root, only those with the same parts lead to the same place. -/
theorem same_of_site (hroot : root.text ≠ "") (h : root.isInside p = true) (ha : IsName a)
    (hb : IsName b) (hsite : d.site p = d.site root ++ [a, b]) :
    p.same ((root.join a).join b) = true := by
  obtain ⟨names, hparts, hplace⟩ := exists_names_of_isInside hroot h
  rw [hplace d] at hsite
  obtain rfl := List.append_cancel_left hsite
  simp [same, hparts, parts_join hb, parts_join ha]

end Disk

end Mockup.Files
