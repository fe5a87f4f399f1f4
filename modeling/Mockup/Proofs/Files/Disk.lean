import Mockup.Files.Disk
import Mockup.Proofs.Files.Path
import Mockup.Proofs.Lookup

/-! Where paths lead. A path leads to one place on every disk with the same home; what lies on the
way decides only whether it gets there. -/

namespace Mockup.Files.Disk

open Files.Path

variable {d d' : Disk} {l k : Location} {p : Path} {e : String} {x : Entry}

theorem entry?_nil (d : Disk) : d.entry? [] = some .dir := if_pos rfl

theorem ne_nil_of_not_dir (h : d.entry? l ≠ some .dir) : l ≠ [] := by
  rintro rfl
  exact h (entry?_nil d)

theorem entry?_set (hl : l ≠ []) (d : Disk) (x : Entry) (k : Location) :
    Disk.entry? (d.set l x) k = if k = l then some x else d.entry? k := by
  unfold entry? set
  by_cases hnil : k = []
  · subst hnil
    rw [if_pos rfl, if_pos rfl, if_neg hl.symm]
  · rw [if_neg hnil, if_neg hnil]
    exact lookup_put l x d.entries k

theorem dir_set (hfree : d.entry? l ≠ some .dir) (x : Entry) (hk : d.entry? k = some .dir) :
    Disk.entry? (d.set l x) k = some .dir := by
  have hother : k ≠ l := fun heq => hfree (heq ▸ hk)
  rw [entry?_set (ne_nil_of_not_dir hfree), if_neg hother, hk]

theorem entry?_removeTree (hl : l ≠ []) (d : Disk) (k : Location) :
    Disk.entry? (d.removeTree l) k = if l <+: k then none else d.entry? k := by
  unfold entry? removeTree
  by_cases hnil : k = []
  · subst hnil
    rw [if_pos rfl, if_pos rfl, if_neg fun h => hl (List.prefix_nil.mp h)]
  · have hfilter := lookup_filter (fun j => !l.isPrefixOf j) d.entries k
    rw [if_neg hnil, if_neg hnil, hfilter]
    by_cases hprefix : l <+: k
    · rw [if_pos hprefix, List.isPrefixOf_iff_prefix.mpr hprefix]
      rfl
    · have hfalse : l.isPrefixOf k = false := by
        rw [← Bool.not_eq_true, List.isPrefixOf_iff_prefix]
        exact hprefix
      rw [if_neg hprefix, hfalse]
      rfl

theorem onward_name (h : IsName e) (l : Location) : onward l e = l ++ [e] := by
  unfold onward
  rw [h.notTrivial, if_neg Bool.false_ne_true, if_neg h.notParent]

def site (d : Disk) (p : Path) : Location := p.stem.foldl onward (d.start p)

/-- The places that a path passes on the way to its entries. -/
def stops (d : Disk) (p : Path) : List Location := p.stem.scanl onward (d.start p)

theorem site_congr (h : d'.home = d.home) (p : Path) : d'.site p = d.site p := by
  unfold site start
  rw [h]

theorem stops_congr (h : d'.home = d.home) (p : Path) : d'.stops p = d.stops p := by
  unfold stops start
  rw [h]

structure IsOpen (d : Disk) (p : Path) : Prop where
  noNul : p.hasNul = false
  dirs : ∀ k ∈ d.stops p, d.entry? k = some .dir
  short : ∀ e ∈ p.stem, isTooLong e = false

theorem start_join (h : IsName e) : d.start (p.join e) = d.start p := by
  unfold start
  rw [isAbsolute_join h]

theorem site_join (h : IsName e) : d.site (p.join e) = d.site p ++ [e] := by
  unfold site
  rw [start_join h, stem_join h, List.foldl_append]
  exact onward_name h _

theorem stops_join (h : IsName e) : d.stops (p.join e) = d.stops p ++ [d.site p ++ [e]] := by
  unfold stops site
  rw [start_join h, stem_join h, List.scanl_append, ← onward_name h]
  rfl

theorem isOpen_join (h : IsName e) :
    d.IsOpen (p.join e) ↔
      d.IsOpen p ∧ isTooLong e = false ∧ d.entry? (d.site p ++ [e]) = some .dir := by
  constructor
  · rintro ⟨hnul, hdirs, hshort⟩
    rw [hasNul_join h] at hnul
    rw [stops_join h, List.forall_mem_append] at hdirs
    rw [stem_join h, List.forall_mem_append] at hshort
    exact ⟨⟨hnul, hdirs.1, hshort.1⟩, hshort.2 e (List.mem_singleton_self e),
      hdirs.2 _ (List.mem_singleton_self _)⟩
  · rintro ⟨⟨hnul, hdirs, hshort⟩, he, hdir⟩
    refine ⟨by rwa [hasNul_join h], ?_, ?_⟩
    · rw [stops_join h, List.forall_mem_append]
      exact ⟨hdirs, fun k hk => List.mem_singleton.mp hk ▸ hdir⟩
    · rw [stem_join h, List.forall_mem_append]
      exact ⟨hshort, fun k hk => List.mem_singleton.mp hk ▸ he⟩

theorem IsOpen.mono (h : d.IsOpen p) (hhome : d'.home = d.home)
    (hdirs : ∀ k ∈ d.stops p, d.entry? k = some .dir → d'.entry? k = some .dir) : d'.IsOpen p := by
  have hstops : d'.stops p = d.stops p := stops_congr hhome p
  exact ⟨h.noNul, fun k hk => hdirs k (hstops ▸ hk) (h.dirs k (hstops ▸ hk)), h.short⟩

theorem walk_append_iff {ps : List String} :
    d.walk l (ps ++ [e]) = .ok k ↔
      (∀ j ∈ ps.scanl onward l, d.entry? j = some .dir) ∧ (∀ piece ∈ ps, isTooLong piece = false) ∧
        isTooLong e = false ∧ k = onward (ps.foldl onward l) e := by
  induction ps generalizing l with
  | nil =>
    cases hentry : d.entry? l with
    | none => simp [walk, hentry]
    | some x =>
      cases x with
      | file text => simp [walk, hentry]
      | dir =>
        cases hlong : isTooLong e with
        | false =>
          have hwalk : d.walk l [e] = .ok (onward l e) := by simp [walk, hentry, hlong]
          rw [List.nil_append, hwalk]
          simp only [List.scanl_nil, List.forall_mem_singleton, hentry, List.foldl_nil]
          constructor
          · intro hk
            exact ⟨trivial, nofun, trivial, (Except.ok.inj hk).symm⟩
          · rintro ⟨-, -, -, rfl⟩
            rfl
        | true => simp [walk, hentry, hlong]
  | cons piece rest ih =>
    rw [List.scanl_cons, List.forall_mem_cons, List.forall_mem_cons, List.cons_append,
      List.foldl_cons]
    cases hentry : d.entry? l with
    | none => simp [walk, hentry]
    | some x =>
      cases x with
      | file text => simp [walk, hentry]
      | dir =>
        cases hlong : isTooLong piece with
        | false => simp [walk, hentry, hlong, ih]
        | true => simp [walk, hentry, hlong]

theorem locate_join (h : IsName e) :
    d.locate (p.join e) = .ok k ↔ d.IsOpen p ∧ isTooLong e = false ∧ k = d.site p ++ [e] := by
  unfold locate
  rw [if_neg (text_join_ne_empty h), hasNul_join h, pieces_join h, start_join h]
  cases hnul : p.hasNul with
  | true =>
    refine ⟨nofun, fun ⟨hopen, _⟩ => ?_⟩
    rw [hopen.noNul] at hnul
    cases hnul
  | false =>
    rw [if_neg Bool.false_ne_true, walk_append_iff, onward_name h]
    constructor
    · rintro ⟨hdirs, hshort, he, rfl⟩
      exact ⟨⟨hnul, hdirs, hshort⟩, he, rfl⟩
    · rintro ⟨⟨-, hdirs, hshort⟩, he, rfl⟩
      exact ⟨hdirs, hshort, he, rfl⟩

theorem find?_join (h : IsName e) (hx : d.find? (p.join e) = some x) :
    d.entry? (d.site p ++ [e]) = some x := by
  unfold find? at hx
  cases hlocate : d.locate (p.join e) with
  | error f => simp [hlocate, Except.toOption] at hx
  | ok k =>
    obtain ⟨-, -, rfl⟩ := (locate_join h).mp hlocate
    simpa [hlocate, Except.toOption] using hx

theorem has_join_of_none (h : IsName e) (hnone : d.entry? (d.site p ++ [e]) = none) :
    d.has (p.join e) = false := by
  unfold has
  cases hx : d.find? (p.join e) with
  | none => rfl
  | some x =>
    rw [find?_join h hx] at hnone
    cases hnone

theorem has_join (h : IsName e) (hopen : d.IsOpen p) (he : isTooLong e = false)
    (hx : d.entry? (d.site p ++ [e]) = some x) : d.has (p.join e) = true := by
  unfold has find?
  rw [(locate_join h).mpr ⟨hopen, he, rfl⟩]
  simp [Except.toOption, hx]

theorem isOpen_of_has (h : IsName e) (hhas : d.has (p.join e) = true) :
    d.IsOpen p ∧ d.entry? (d.site p ++ [e]) ≠ none := by
  obtain ⟨x, hx⟩ := Option.isSome_iff_exists.mp hhas
  have hentry := find?_join h hx
  unfold find? at hx
  cases hlocate : d.locate (p.join e) with
  | error f => simp [hlocate, Except.toOption] at hx
  | ok k =>
    obtain ⟨hopen, -, -⟩ := (locate_join h).mp hlocate
    exact ⟨hopen, by rw [hentry]; exact Option.some_ne_none x⟩

theorem read_join (h : IsName e) (hopen : d.IsOpen p) (he : isTooLong e = false) {text : String}
    (hx : d.entry? (d.site p ++ [e]) = some (.file text)) : d.read (p.join e) = .ok text := by
  unfold read
  rw [(locate_join h).mpr ⟨hopen, he, rfl⟩]
  simp [hx]

theorem walk_mono (hdirs : ∀ j, d.entry? j = some .dir → d'.entry? j = some .dir)
    {ps : List String} (h : d.walk l ps = .ok k) : d'.walk l ps = .ok k := by
  induction ps generalizing l with
  | nil => exact h
  | cons piece rest ih =>
    cases hentry : d.entry? l with
    | none => simp [walk, hentry] at h
    | some x =>
      cases x with
      | file text => simp [walk, hentry] at h
      | dir =>
        cases hlong : isTooLong piece with
        | true => simp [walk, hentry, hlong] at h
        | false =>
          simp only [walk, hentry, hlong, Bool.false_eq_true, if_false] at h
          simp only [walk, hdirs l hentry, hlong, Bool.false_eq_true, if_false]
          exact ih h

theorem locate_mono (hhome : d'.home = d.home)
    (hdirs : ∀ j, d.entry? j = some .dir → d'.entry? j = some .dir) (h : d.locate p = .ok k) :
    d'.locate p = .ok k := by
  unfold locate start at h ⊢
  rw [hhome]
  split at h
  · cases h
  · split at h
    · cases h
    · next hempty hnul =>
      rw [if_neg hempty, if_neg hnul]
      exact walk_mono hdirs h

theorem prefix_foldl_onward {ps : List String} (h : ".." ∉ ps) : l <+: ps.foldl onward l := by
  induction ps generalizing l with
  | nil => exact List.prefix_rfl
  | cons piece rest ih =>
    refine List.IsPrefix.trans ?_ (ih (List.not_mem_of_not_mem_cons h))
    unfold onward
    rw [if_neg (List.ne_of_not_mem_cons h).symm]
    split
    · exact List.prefix_rfl
    · exact List.prefix_append _ _

theorem prefix_site_of_mem_stops (h : ".." ∉ p.stem) (hk : k ∈ d.stops p) : k <+: d.site p := by
  unfold stops at hk
  unfold site
  generalize d.start p = l at hk ⊢
  generalize p.stem = ps at h hk ⊢
  induction ps generalizing l with
  | nil =>
    obtain rfl := List.mem_singleton.mp hk
    exact List.prefix_rfl
  | cons piece rest ih =>
    rw [List.scanl_cons] at hk
    rcases List.mem_cons.mp hk with rfl | hk
    · exact prefix_foldl_onward h
    · exact ih _ (List.not_mem_of_not_mem_cons h) hk

theorem dir_of_mem_stops (h : d.find? p = some .dir) (hk : k ∈ d.stops p) :
    d.entry? k = some .dir := by
  have hne : p.pieces ≠ [] := fun hnil => Text.splitAt_ne_nil _ _ (List.map_eq_nil_iff.mp hnil)
  obtain ⟨front, last, hpieces⟩ : ∃ front last, p.pieces = front ++ [last] :=
    ⟨_, _, (List.dropLast_concat_getLast hne).symm⟩
  unfold find? locate at h
  split at h
  · cases h
  · split at h
    · cases h
    · next hempty _ =>
      cases hwalk : d.walk (d.start p) p.pieces with
      | error f => simp [hwalk, Except.toOption] at h
      | ok l =>
        rw [hwalk] at h
        rw [hpieces] at hwalk
        obtain ⟨hdirs, -, -, rfl⟩ := walk_append_iff.mp hwalk
        unfold stops stem at hk
        rw [if_neg hempty, hpieces, List.dropLast_concat] at hk
        split at hk
        · exact hdirs k hk
        · rw [List.scanl_append, List.mem_append] at hk
          rcases hk with hk | hk
          · exact hdirs k hk
          · obtain rfl := List.mem_singleton.mp hk
            exact h

end Mockup.Files.Disk
