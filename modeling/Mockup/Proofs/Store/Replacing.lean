import Mockup.Proofs.Store.Invariant

/-! Replacing what was published. The new bundle is stored, the directory of the bundle before is
removed if it has another slug, and the manifest is written; afterwards the directory of the owner
looks as the new manifest says. -/

namespace Mockup.Store

open Files Path Disk

variable {s : Store} {d d' d₁ d₂ : Disk} {owner : String} {m old : Manifest}
  {published : String → Option Manifest} {b : Bundle}

/-- The directory of the old bundle was removed, and nothing else. -/
structure Cleared (s : Store) (owner : String) (stale : Option String) (d d' : Disk) : Prop where
  home : d'.home = d.home
  gone : ∀ slug ∈ stale, ∀ k, [slug] <+: k → d'.entry? (s.place d owner k) = none
  others : ∀ l, (∀ slug ∈ stale, ¬ s.place d owner [slug] <+: l) → d'.entry? l = d.entry? l

def stale (previous : Option Manifest) (m : Manifest) : Option String :=
  (previous.filter fun old => old.slug ≠ m.slug).map Manifest.slug

theorem outdated_eq (hm : s.Placed owner m) (hold : s.Placed owner old) :
    outdated (some old) m.path = if old.slug = m.slug then none else some old.path := by
  have hsame : old.path.same m.path = decide (old.slug = m.slug) := by
    rw [hold.path, hm.path, same_join hold.isSlug.isName hm.isSlug.isName]
  unfold outdated
  by_cases hslug : old.slug = m.slug <;> simp [hsame, hslug, Option.filter]

theorem deleting_eq (hold : s.Placed owner old) :
    s.deleting old.path = .perform (.discard old.path) (.cannotRemove old.path) := by
  have hinside : s.root.isInside old.path = true := by
    rw [hold.path]
    exact isInside_join (isName_of_isOwner hold.isOwner) hold.isSlug.isName
  rw [deleting, if_pos hinside]

theorem cleared_of_runActs (h : s.Holds d published) (hm : s.Genuine owner m)
    (hhome : d₁.home = d.home) (hdirs : ∀ k, d.entry? k = some .dir → d₁.entry? k = some .dir)
    (hrun : runActs d₁ ((outdated (published owner) m.path).map s.deleting).toList = (d₂, none)) :
    Cleared s owner (stale (published owner) m) d₁ d₂ := by
  have hunchanged (hrun : runActs d₁ ([] : List (Act StoreError)) = (d₂, none)) :
      Cleared s owner none d₁ d₂ := by
    obtain rfl : d₁ = d₂ := (Prod.mk.inj hrun).1
    exact ⟨rfl, nofun, fun _ _ => rfl⟩
  cases hprevious : published owner with
  | none =>
    rw [hprevious] at hrun
    exact hunchanged hrun
  | some old =>
    have hold := h.genuine owner old hprevious
    rw [hprevious, outdated_eq hm.toPlaced hold.toPlaced] at hrun
    by_cases hslug : old.slug = m.slug
    · rw [if_pos hslug] at hrun
      have hstale : stale (some old) m = none := by simp [stale, Option.filter, hslug]
      rw [hstale]
      exact hunchanged hrun
    · have hstale : stale (some old) m = some old.slug := by simp [stale, Option.filter, hslug]
      rw [if_neg hslug, Option.map_some, Option.toList_some, deleting_eq hold.toPlaced] at hrun
      obtain ⟨d₃, hdiscard, hnil⟩ := runActs_cons_eq_none.mp hrun
      obtain rfl : d₃ = d₂ := (Prod.mk.inj hnil).1
      have hopen : d₁.IsOpen old.path :=
        (h.isOpen owner old hprevious).mono hhome fun k _ => hdirs k
      have hplace : d₁.site (s.root.join owner) ++ [old.slug] = s.place d₁ owner [old.slug] :=
        site_owner hm.isOwner d₁ old.slug
      have hremoved := perform_run_eq_none hdiscard
      rw [hold.path] at hremoved hopen
      rw [discard_join hold.isSlug.isName hopen, hplace] at hremoved
      obtain rfl := (Prod.mk.inj hremoved).1
      have hne : s.place d₁ owner [old.slug] ≠ [] := by simp [place]
      have hentry := entry?_removeTree hne d₁
      rw [hstale]
      refine ⟨rfl, fun slug hmem k hk => ?_, fun l hl => ?_⟩
      · obtain rfl := Option.some.inj hmem
        rw [hentry, if_pos (place_prefix_iff.mpr hk)]
      · rw [hentry, if_neg (hl _ rfl)]

theorem place_append (j k : Location) : s.place d owner j ++ k = s.place d owner (j ++ k) := by
  simp [place]

theorem Direct.not_prefix (hdirect : s.Direct d) {l : Location} (hl : l ∈ d.stops s.root)
    (owner : String) (j : Location) : ¬ s.place d owner j <+: l := by
  rintro ⟨k, rfl⟩
  rw [place_append] at hl
  exact hdirect.not_mem_stops owner _ hl

theorem mem_stale_iff {previous : Option Manifest} {slug : String} :
    slug ∈ stale previous m ↔ ∃ old, previous = some old ∧ old.slug ≠ m.slug ∧ old.slug = slug := by
  simp only [stale, Option.mem_def, Option.map_eq_some_iff, Option.filter_eq_some_iff,
    decide_eq_true_eq, and_assoc]

theorem layout_eq_none {name : String} {rest : Location} (hmanifest : name :: rest ≠ [manifestName])
    (hname : name ≠ m.slug) : layout m (name :: rest) = none := by
  rcases rest with _ | ⟨file, _ | ⟨deep, rest⟩⟩
  · have hne : name ≠ manifestName := fun heq => hmanifest (by rw [heq])
    simp [layout, hne, hname]
  · simp [layout, hname]
  · rfl

theorem lookup_files_eq_none {name : String} (h : name ∉ fileNames) :
    b.files.lookup name = none := by
  rw [List.lookup_eq_none_iff]
  intro f hf
  rw [bne_iff_ne]
  rintro rfl
  exact h (map_fst_files b ▸ List.mem_map_of_mem hf)

theorem lookup_files_of_mem {f : String × String} (h : f ∈ b.files) :
    b.files.lookup f.1 = some f.2 := by
  simp only [Bundle.files, List.mem_cons, List.not_mem_nil, or_false] at h
  rcases h with rfl | rfl | rfl <;> rfl

theorem layout_eq_none_of_file {name file : String} {rest : Location}
    (h : rest = [] → file ∉ fileNames) : layout m (name :: file :: rest) = none := by
  rcases rest with _ | ⟨deep, rest⟩
  · simp [layout, lookup_files_eq_none (h rfl)]
  · rfl

/-- The disks between the three parts of a replacement. -/
structure Replaced (s : Store) (owner : String) (previous : Option Manifest) (b : Bundle)
    (m : Manifest) (d d₁ d₂ d' : Disk) : Prop where
  stored : Stored m.path b d d₁
  cleared : Cleared s owner (stale previous m) d₁ d₂
  home : d'.home = d₂.home
  written : ∀ l, d'.entry? l =
    if l = s.place d owner [manifestName] then some (.file m.indented) else d₂.entry? l

theorem replaced_of_runActs (h : s.Holds d published) (hm : s.Genuine owner m)
    (hrun : runActs d (s.replacing (s.root.join owner) (published owner) b m) = (d', none)) :
    ∃ d₁ d₂, Replaced s owner (published owner) b m d d₁ d₂ d' := by
  obtain ⟨d₂, hrun, hwrite⟩ := runActs_append_eq_none.mp hrun
  obtain ⟨d₁, hstore, hclear⟩ := runActs_append_eq_none.mp hrun
  have hstored : Stored m.path b d d₁ := by
    rw [hm.path] at hstore ⊢
    exact stored_of_runActs hm.isSlug.isName hstore
  have hcleared := cleared_of_runActs h hm hstored.home hstored.dirs hclear
  obtain ⟨d₃, hmanifest, hnil⟩ := runActs_cons_eq_none.mp hwrite
  obtain rfl : d₃ = d' := (Prod.mk.inj hnil).1
  obtain ⟨-, -, -, rfl⟩ := write_join isName_manifestName (perform_run_eq_none hmanifest)
  rw [site_owner hm.isOwner, place_congr (hcleared.home.trans hstored.home)]
  exact ⟨d₁, d₂, hstored, hcleared, rfl, entry?_set (by simp [place]) d₂ _⟩

namespace Replaced

variable (hr : Replaced s owner (published owner) b m d d₁ d₂ d')

include hr

theorem place_eq (k : Location) : s.place d₁ owner k = s.place d owner k :=
  place_congr hr.stored.home k

theorem gone {slug : String} (hslug : slug ∈ stale (published owner) m) (k : Location) :
    d₂.entry? (s.place d owner (slug :: k)) = none := by
  rw [← hr.place_eq]
  exact hr.cleared.gone slug hslug _ (List.prefix_append [slug] k)

theorem kept {l : Location}
    (hl : ∀ slug ∈ stale (published owner) m, ¬ s.place d owner [slug] <+: l) :
    d₂.entry? l = d₁.entry? l := by
  refine hr.cleared.others l fun slug hslug => ?_
  rw [hr.place_eq]
  exact hl slug hslug

theorem kept_slug (k : Location) :
    d₂.entry? (s.place d owner (m.slug :: k)) = d₁.entry? (s.place d owner (m.slug :: k)) := by
  refine hr.kept fun slug hslug => ?_
  obtain ⟨old, -, hne, rfl⟩ := mem_stale_iff.mp hslug
  rw [place_prefix_iff]
  exact fun hprefix => hne (List.cons_prefix_cons.mp hprefix).1

theorem unstored (h : s.Holds d published) (hdirect : s.Direct d) (hm : s.Genuine owner m)
    {name : String} {rest : Location}
    (hfree : ∀ f ∈ b.files, name :: rest ≠ [m.slug, f.1]) (hdir : name :: rest ≠ [m.slug]) :
    d₁.entry? (s.place d owner (name :: rest)) =
      (published owner).bind (layout · (name :: rest)) := by
  rw [hr.stored.others, h.entries owner hm.isOwner]
  · intro f hf
    rw [hm.site, place_append, Ne, place_inj]
    exact hfree f hf
  · rw [hm.stops, List.mem_append, List.mem_pair, place_inj, place_inj]
    rintro (hstop | hnil | hslug)
    · exact hdirect.not_mem_stops owner _ hstop
    · exact List.cons_ne_nil _ _ hnil
    · exact hdir hslug

theorem entry?_eq_none (h : s.Holds d published) (hdirect : s.Direct d) (hm : s.Genuine owner m)
    {name : String} {rest : Location} (hmanifest : name :: rest ≠ [manifestName])
    (hname : name ≠ m.slug) : d₂.entry? (s.place d owner (name :: rest)) = none := by
  -- a name is that of the bundle before, which was removed, or one that was never there
  by_cases hstale : name ∈ stale (published owner) m
  · exact hr.gone hstale rest
  · rw [hr.kept, hr.unstored h hdirect hm]
    · cases hprevious : published owner with
      | none => rfl
      | some old =>
        refine layout_eq_none hmanifest fun heq => hstale ?_
        exact mem_stale_iff.mpr ⟨old, hprevious, heq ▸ hname, heq.symm⟩
    · exact fun f _ heq => hname (List.cons.inj heq).1
    · exact fun heq => hname (List.cons.inj heq).1
    · intro slug hslug
      rw [place_prefix_iff]
      exact fun hprefix => hstale ((List.cons_prefix_cons.mp hprefix).1 ▸ hslug)

theorem touches (hdirect : s.Direct d) (hm : s.Genuine owner m) : s.Touches owner d d' where
  home := by rw [hr.home, hr.cleared.home, hr.stored.home]
  dirs := by
    intro k hk hdir
    rw [hr.written, if_neg fun heq => hdirect.not_mem_stops owner _ (heq ▸ hk), hr.kept]
    · exact hr.stored.dirs k hdir
    · exact fun slug _ => hdirect.not_prefix hk owner [slug]
  others := by
    intro k hk hstop
    have hbelow (j : Location) : ¬ s.place d owner j <+: k := fun hprefix =>
      hk ((place_prefix_iff.mpr (List.nil_prefix)).trans hprefix)
    have hne (j : Location) : k ≠ s.place d owner j := fun heq =>
      hbelow j (heq ▸ List.prefix_rfl)
    rw [hr.written, if_neg (hne _), hr.kept fun slug _ => hbelow [slug]]
    refine hr.stored.others k (fun f _ => ?_) ?_
    · rw [hm.site, place_append]
      exact hne _
    · rw [hm.stops, List.mem_append, List.mem_pair]
      rintro (hk | hk | hk)
      · exact hstop hk
      · exact hne _ hk
      · exact hne _ hk

theorem dir_of_mem_stops {k : Location} (hk : k ∈ d.stops m.path) :
    d₁.entry? k = some .dir := by
  rw [← stops_congr hr.stored.home] at hk
  exact hr.stored.isOpen.dirs k hk

theorem layout_bundle (h : s.Holds d published) (hdirect : s.Direct d) (hm : s.Genuine owner m)
    (hb : b = Bundle.compile m.slug m.spec) (file : String) (rest : Location) :
    d₁.entry? (s.place d owner (m.slug :: file :: rest)) = layout m (m.slug :: file :: rest) := by
  by_cases hfile : rest = [] ∧ file ∈ fileNames
  · obtain ⟨rfl, hmem⟩ := hfile
    rw [← map_fst_files b] at hmem
    obtain ⟨f, hf, rfl⟩ := List.mem_map.mp hmem
    have hstored := hr.stored.files f hf
    rw [hm.site, place_append] at hstored
    refine hstored.trans ?_
    simp [layout, ← hb, lookup_files_of_mem hf]
  · have hnone (m' : Manifest) : layout m' (m.slug :: file :: rest) = none :=
      layout_eq_none_of_file fun hrest hmem => hfile ⟨hrest, hmem⟩
    rw [hnone, hr.unstored h hdirect hm]
    · cases published owner with
      | none => rfl
      | some old => exact hnone old
    · intro f hf heq
      obtain ⟨-, hrest⟩ := List.cons.inj heq
      obtain ⟨rfl, rfl⟩ := List.cons.inj hrest
      exact hfile ⟨rfl, map_fst_files b ▸ List.mem_map_of_mem hf⟩
    · simp

theorem layout_eq (h : s.Holds d published) (hdirect : s.Direct d) (hm : s.Genuine owner m)
    (hb : b = Bundle.compile m.slug m.spec) (k : Location) :
    d'.entry? (s.place d owner k) = layout m k := by
  have hwritten := hr.written (s.place d owner k)
  simp only [place_inj] at hwritten
  rw [hwritten]
  -- the directory itself, the manifest, what is in the new bundle, and all else
  rcases k with _ | ⟨name, rest⟩
  · rw [if_neg (List.cons_ne_nil _ _).symm, hr.kept fun slug _ => ?_]
    · exact hr.dir_of_mem_stops (by simp [hm.stops])
    · rw [place_prefix_iff, List.prefix_nil]
      exact List.cons_ne_nil _ _
  · by_cases hmanifest : name :: rest = [manifestName]
    · obtain ⟨rfl, rfl⟩ := List.cons.inj hmanifest
      rw [if_pos rfl]
      rfl
    · rw [if_neg hmanifest]
      by_cases hname : name = m.slug
      · subst hname
        rw [hr.kept_slug]
        rcases rest with _ | ⟨file, rest⟩
        · have hne := slug_ne_manifestName hm.isSlug
          rw [hr.dir_of_mem_stops (by simp [hm.stops])]
          simp [layout, hne]
        · exact hr.layout_bundle h hdirect hm hb file rest
      · rw [layout_eq_none hmanifest hname, hr.entry?_eq_none h hdirect hm hmanifest hname]

theorem isOpen (h : s.Holds d published) (hdirect : s.Direct d) (hm : s.Genuine owner m)
    (hb : b = Bundle.compile m.slug m.spec) : d'.IsOpen m.path := by
  have hhome : d'.home = d₁.home := hr.home.trans hr.cleared.home
  refine hr.stored.isOpen.mono hhome fun k hk hdir => ?_
  rw [stops_congr hr.stored.home, hm.stops, List.mem_append, List.mem_pair] at hk
  rcases hk with hk | rfl | rfl
  · rw [hr.written, if_neg fun heq => hdirect.not_mem_stops owner _ (heq ▸ hk),
      hr.kept fun slug _ => hdirect.not_prefix hk owner [slug], hdir]
  · rw [hr.layout_eq h hdirect hm hb]
    rfl
  · rw [hr.layout_eq h hdirect hm hb]
    simp [layout, slug_ne_manifestName hm.isSlug]

end Replaced

/-- A replacement that goes through leaves the new manifest as what was published. -/
theorem Holds.replacing (h : s.Holds d published) (hdirect : s.Direct d) (hm : s.Genuine owner m)
    (hrun : runActs d (s.replacing (s.root.join owner) (published owner)
      (Bundle.compile m.slug m.spec) m) = (d', none)) :
    s.Touches owner d d' ∧ s.Holds d' (Function.update published owner (some m)) := by
  obtain ⟨d₁, d₂, hr⟩ := replaced_of_runActs h hm hrun
  have htouches := hr.touches hdirect hm
  refine ⟨htouches, h.of_touches hdirect htouches (fun m' hm' => ?_) fun k => ?_⟩
  · obtain rfl := Option.some.inj hm'
    exact ⟨hm, hr.isOpen h hdirect hm rfl⟩
  · rw [hr.layout_eq h hdirect hm rfl, Option.bind_some]

end Mockup.Store
