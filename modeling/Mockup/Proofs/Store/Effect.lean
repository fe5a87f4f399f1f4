import Mockup.Proofs.Store.Replacing

/-! What a replacement can do before it writes the manifest, as far as it gets. Each act leaves the
manifest as it is, and of the bundle of another slug it leaves all or nothing. -/

namespace Mockup.Store

open Files Path Disk

variable {s : Store} {d d₁ d' : Disk} {owner slug : String} {m : Manifest}
  {previous : Option Manifest} {b : Bundle} {a : Act StoreError}

inductive Effect (s : Store) (owner : String) (m : Manifest) (d : Disk) : Disk → Prop where
  | same : Effect s owner m d d
  | widened {d' : Disk} (h : Widens (d.stops m.path) d d') : Effect s owner m d d'
  | wrote (name text : String) :
    Effect s owner m d (d.set (s.place d owner [m.slug, name]) (.file text))
  | cleared {slug : String} (h : Slug.IsSlug slug) (hne : slug ≠ m.slug) :
    Effect s owner m d (d.removeTree (s.place d owner [slug]))

/-- The acts of a replacement before the last, which writes the manifest. -/
def placing (s : Store) (previous : Option Manifest) (b : Bundle) (m : Manifest) :
    List (Act StoreError) :=
  storing m.path b ++ ((outdated previous m.path).map s.deleting).toList

theorem replacing_eq (s : Store) (dir : Path) (previous : Option Manifest) (b : Bundle)
    (m : Manifest) : s.replacing dir previous b m =
      s.placing previous b m ++ [writing (dir.join manifestName) m.indented] := rfl

theorem effect_of_mem_storing (hm : s.Placed owner m) (ha : a ∈ storing m.path b) (d : Disk) :
    Effect s owner m d (a.run d).1 := by
  rcases List.mem_cons.mp ha with rfl | ha
  · have hwidens := widens_run_makeDirs (d := d) (p := s.root.join owner) hm.isSlug.isName
    rw [← hm.path] at hwidens
    rw [perform_run_fst]
    exact .widened hwidens
  · obtain ⟨f, hf, rfl⟩ := List.mem_map.mp ha
    have hplace : d.site m.path ++ [f.1] = s.place d owner [m.slug, f.1] := by
      rw [hm.site, place_append]
      rfl
    rw [writing, perform_run_fst, Step.run]
    rcases put_join_cases (d := d) (p := m.path) (isName_of_mem_files hf) fun _ => f.2 with
      ⟨text, hput⟩ | ⟨fault, hput⟩
    · rw [hput, hplace]
      exact .wrote f.1 text
    · rw [hput]
      exact .same

theorem effect_of_mem_outdated (hm : s.Placed owner m)
    (hprevious : ∀ old ∈ previous, s.Placed owner old)
    (ha : a ∈ ((outdated previous m.path).map s.deleting).toList) (d : Disk) :
    (a.run d).1 = d ∨ ∃ slug, Slug.IsSlug slug ∧ slug ≠ m.slug ∧
      (a.run d).1 = d.removeTree (s.place d owner [slug]) := by
  rw [Option.mem_toList, Option.map_eq_some_iff] at ha
  obtain ⟨p, hp, rfl⟩ := ha
  cases previous with
  | none => simp [outdated] at hp
  | some old =>
    have hold := hprevious old rfl
    rw [outdated_eq hm hold] at hp
    split at hp
    · cases hp
    · next hne =>
      obtain rfl := Option.some.inj hp
      rw [deleting_eq hold, perform_run_fst, hold.path]
      have hcases := discard_join_cases (d := d) (p := s.root.join owner) hold.isSlug.isName
      rw [site_owner hold.isOwner] at hcases
      rcases hcases with hremoved | hkept
      · exact .inr ⟨old.slug, hold.isSlug, hne, hremoved⟩
      · exact .inl hkept

theorem effect_of_mem (hm : s.Placed owner m) (hprevious : ∀ old ∈ previous, s.Placed owner old)
    (ha : a ∈ s.placing previous b m) (d : Disk) : Effect s owner m d (a.run d).1 := by
  rcases List.mem_append.mp ha with ha | ha
  · exact effect_of_mem_storing hm ha d
  · rcases effect_of_mem_outdated hm hprevious ha d with hkept | ⟨slug, hslug, hne, hremoved⟩
    · rw [hkept]
      exact .same
    · rw [hremoved]
      exact .cleared hslug hne

theorem Effect.home (h : Effect s owner m d d') : d'.home = d.home := by
  cases h with
  | same => rfl
  | widened h => exact h.home
  | wrote name text => rfl
  | cleared h hne => rfl

theorem Touches.trans (h : s.Touches owner d d₁) (h' : s.Touches owner d₁ d') :
    s.Touches owner d d' where
  home := h'.home.trans h.home
  dirs := by
    intro k hk hdir
    refine h'.dirs k ?_ (h.dirs k hk hdir)
    rwa [stops_congr h.home]
  others := by
    intro k hk hstop
    rw [h'.others k, h.others k hk hstop]
    · rwa [place_congr h.home]
    · rwa [stops_congr h.home]

theorem place_nil_prefix (s : Store) (d : Disk) (owner : String) (k : Location) :
    s.place d owner [] <+: s.place d owner k := place_prefix_iff.mpr List.nil_prefix

theorem entry?_set_place (d : Disk) (j k : Location) (x : Entry) :
    Disk.entry? (d.set (s.place d owner j) x) (s.place d owner k) =
      if k = j then some x else d.entry? (s.place d owner k) := by
  rw [entry?_set (by simp [place])]
  simp only [place_inj]

theorem entry?_removeTree_place (d : Disk) (j k : Location) :
    Disk.entry? (d.removeTree (s.place d owner j)) (s.place d owner k) =
      if j <+: k then none else d.entry? (s.place d owner k) := by
  rw [entry?_removeTree (by simp [place])]
  simp only [place_prefix_iff]

theorem touches_set (hdirect : s.Direct d) (k : Location) (x : Entry) :
    s.Touches owner d (d.set (s.place d owner k) x) := by
  have hset := entry?_set (l := s.place d owner k) (by simp [place]) d x
  refine ⟨rfl, fun j hj hdir => ?_, fun j hj _ => ?_⟩
  · have hne : j ≠ s.place d owner k := fun heq => hdirect.not_mem_stops owner k (heq ▸ hj)
    rw [hset, if_neg hne, hdir]
  · have hne : j ≠ s.place d owner k := fun heq => hj (heq ▸ s.place_nil_prefix d owner k)
    rw [hset, if_neg hne]

theorem touches_removeTree (hdirect : s.Direct d) (k : Location) :
    s.Touches owner d (d.removeTree (s.place d owner k)) := by
  have hentry := entry?_removeTree (l := s.place d owner k) (by simp [place]) d
  refine ⟨rfl, fun j hj hdir => ?_, fun j hj _ => ?_⟩
  · rw [hentry, if_neg (hdirect.not_prefix hj owner k), hdir]
  · rw [hentry, if_neg fun hprefix => hj ((s.place_nil_prefix d owner k).trans hprefix)]

theorem Effect.touches (h : Effect s owner m d d') (hm : s.Placed owner m) (hdirect : s.Direct d) :
    s.Touches owner d d' := by
  cases h with
  | same => exact .refl s owner d
  | widened h =>
    refine ⟨h.home, fun k _ hdir => h.of_some hdir, fun k hk hstop => h.entry?_eq fun hmem => ?_⟩
    rw [hm.stops, List.mem_append, List.mem_pair] at hmem
    rcases hmem with hmem | rfl | rfl
    · exact hstop hmem
    · exact hk List.prefix_rfl
    · exact hk (s.place_nil_prefix d owner _)
  | wrote name text => exact touches_set hdirect _ _
  | cleared h hne => exact touches_removeTree hdirect _

/-- From one disk to the other, the manifest of the owner stayed, and what is at and below the
directory of another slug than the given one stayed or is gone. -/
structure Leaves (s : Store) (owner slug : String) (d d' : Disk) : Prop where
  home : d'.home = d.home
  dir : d.entry? (s.place d owner []) = some .dir → d'.entry? (s.place d owner []) = some .dir
  manifest : d'.entry? (s.place d owner [manifestName]) = d.entry? (s.place d owner [manifestName])
  others : ∀ other, other ≠ slug →
    (∀ k, d'.entry? (s.place d owner (other :: k)) = d.entry? (s.place d owner (other :: k))) ∨
      ∀ k, d'.entry? (s.place d owner (other :: k)) = none

theorem Leaves.refl (s : Store) (owner slug : String) (d : Disk) : s.Leaves owner slug d d :=
  ⟨rfl, id, rfl, fun _ _ => .inl fun _ => rfl⟩

theorem Leaves.trans (h : s.Leaves owner slug d d₁) (h' : s.Leaves owner slug d₁ d') :
    s.Leaves owner slug d d' := by
  obtain ⟨hhome, hdir, hmanifest, hothers⟩ := h'
  simp only [place_congr h.home] at hdir hmanifest hothers
  refine ⟨hhome.trans h.home, hdir ∘ h.dir, hmanifest.trans h.manifest, fun other hne => ?_⟩
  rcases hothers other hne with hkept | hgone
  · rcases h.others other hne with hkept' | hgone'
    · exact .inl fun k => (hkept k).trans (hkept' k)
    · exact .inr fun k => (hkept k).trans (hgone' k)
  · exact .inr hgone

theorem Placed.not_mem_stops (hm : s.Placed owner m) (hdirect : s.Direct d) {k : Location}
    (hnil : k ≠ []) (hslug : k ≠ [m.slug]) : s.place d owner k ∉ d.stops m.path := by
  rw [hm.stops, List.mem_append, List.mem_pair, place_inj, place_inj]
  rintro (hstop | heq | heq)
  · exact hdirect.not_mem_stops owner k hstop
  · exact hnil heq
  · exact hslug heq

theorem Effect.leaves (h : Effect s owner m d d') (hm : s.Placed owner m) (hdirect : s.Direct d) :
    s.Leaves owner m.slug d d' := by
  cases h with
  | same => exact .refl s owner m.slug d
  | widened h =>
    have hnot {k : Location} := hm.not_mem_stops hdirect (k := k)
    refine ⟨h.home, h.of_some, h.entry?_eq (hnot (List.cons_ne_nil _ _) fun heq => ?_),
      fun other hne => .inl fun k => h.entry?_eq (hnot (List.cons_ne_nil _ _) fun heq => ?_)⟩
    · exact slug_ne_manifestName hm.isSlug (List.cons.inj heq).1.symm
    · exact hne (List.cons.inj heq).1
  | wrote name text =>
    refine ⟨rfl, fun hdir => ?_, ?_, fun other hne => .inl fun k => ?_⟩
    · rw [entry?_set_place, if_neg (List.cons_ne_nil _ _).symm, hdir]
    · rw [entry?_set_place, if_neg (by simp)]
    · rw [entry?_set_place, if_neg fun heq => hne (List.cons.inj heq).1]
  | @cleared slug' hslug hother =>
    refine ⟨rfl, fun hdir => ?_, ?_, fun other hne => ?_⟩
    · rw [entry?_removeTree_place, if_neg (by simp), hdir]
    · rw [entry?_removeTree_place, if_neg]
      exact fun hprefix => slug_ne_manifestName hslug (List.cons_prefix_cons.mp hprefix).1
    · by_cases heq : slug' = other
      · subst heq
        have hbelow (k : Location) : [slug'] <+: slug' :: k := List.prefix_append [slug'] k
        exact .inr fun k => by rw [entry?_removeTree_place, if_pos (hbelow k)]
      · refine .inl fun k => ?_
        rw [entry?_removeTree_place, if_neg]
        exact fun hprefix => heq (List.cons_prefix_cons.mp hprefix).1

/-- However far the acts before the last get, they keep to the directory of the owner, and to what
they may do to the bundle of another slug. -/
theorem runActs_placing (hm : s.Placed owner m) (hprevious : ∀ old ∈ previous, s.Placed owner old)
    {as : List (Act StoreError)} (has : ∀ a ∈ as, a ∈ s.placing previous b m)
    (hdirect : s.Direct d) :
    s.Touches owner d (runActs d as).1 ∧ s.Leaves owner m.slug d (runActs d as).1 := by
  -- Where each act works is said of the disk before it, which the acts before have changed; the
  -- homes of the disks are equal, and so are the places.
  refine runActs_induction (R := fun d d' => s.Direct d → s.Touches owner d d' ∧
    s.Leaves owner m.slug d d') (fun d _ => ?_) (fun d d₁ d' h h' hdirect => ?_)
    (fun a ha d hdirect => ?_) d hdirect
  · exact ⟨.refl s owner d, .refl s owner m.slug d⟩
  · obtain ⟨htouches, hleaves⟩ := h hdirect
    obtain ⟨htouches', hleaves'⟩ := h' (hdirect.of_home htouches.home)
    exact ⟨htouches.trans htouches', hleaves.trans hleaves'⟩
  · have heffect := effect_of_mem hm hprevious (has a ha) d
    exact ⟨heffect.touches hm hdirect, heffect.leaves hm hdirect⟩

theorem eq_of_writing_eq_some {p : Path} {text : String} {e : StoreError}
    (h : (writing (p.join manifestName) text).run d = (d', some e)) : d' = d := by
  have hput := put_join_cases (d := d) (p := p) isName_manifestName fun _ => text
  rw [writing, Act.run, Step.run] at h
  rcases hput with ⟨t, hput⟩ | ⟨f, hput⟩
  · rw [hput] at h
    cases h
  · rw [hput] at h
    exact (Prod.mk.inj h).1.symm

theorem eq_of_runActs_replacing {e : StoreError}
    (hrun : runActs d (s.replacing (s.root.join owner) previous b m) = (d', some e)) :
    d' = (runActs d (s.placing previous b m)).1 := by
  rw [replacing_eq] at hrun
  have hlast (d d' : Disk) (e : StoreError)
      (h : (writing ((s.root.join owner).join manifestName) m.indented).run d = (d', some e)) :
      d' = d := eq_of_writing_eq_some h
  exact fst_runActs_of_concat hlast hrun

structure Installed (s : Store) (owner : String) (b : Bundle) (m : Manifest) (d : Disk) : Prop where
  isOpen : d.IsOpen m.path
  manifest : d.entry? (s.place d owner [manifestName]) = some (.file m.indented)
  files : ∀ f ∈ b.files, d.entry? (s.place d owner [m.slug, f.1]) = some (.file f.2)

theorem runActs_outdated (hm : s.Placed owner m) (hprevious : ∀ old ∈ previous, s.Placed owner old)
    (d : Disk) :
    let d' := (runActs d ((outdated previous m.path).map s.deleting).toList).1
    d'.home = d.home ∧ ∀ l, (∀ slug, slug ≠ m.slug → ¬ s.place d owner [slug] <+: l) →
      d'.entry? l = d.entry? l := by
  refine runActs_induction (R := fun d d' => d'.home = d.home ∧
    ∀ l, (∀ slug, slug ≠ m.slug → ¬ s.place d owner [slug] <+: l) → d'.entry? l = d.entry? l)
    (fun d => ⟨rfl, fun _ _ => rfl⟩) (fun d d₁ d' h h' => ?_) (fun a ha d => ?_) d
  · refine ⟨h'.1.trans h.1, fun l hl => ?_⟩
    rw [h'.2 l, h.2 l hl]
    intro slug hne
    rw [place_congr h.1]
    exact hl slug hne
  · rcases effect_of_mem_outdated hm hprevious ha d with hkept | ⟨slug, -, hne, hremoved⟩
    · rw [hkept]
      exact ⟨rfl, fun _ _ => rfl⟩
    · rw [hremoved]
      refine ⟨rfl, fun l hl => ?_⟩
      rw [entry?_removeTree (by simp [place]), if_neg (hl slug hne)]

/-- The bundle that was stored is in place when the manifest is there and nothing else has changed
since but what is in the directories of other slugs. -/
theorem installed_of_stored (hm : s.Placed owner m) (hdirect : s.Direct d₁)
    (hstored : Stored m.path b d d₁) (hhome : d'.home = d₁.home)
    (hkept : ∀ l, (∀ slug, slug ≠ m.slug → ¬ s.place d₁ owner [slug] <+: l) →
      l ≠ s.place d₁ owner [manifestName] → d'.entry? l = d₁.entry? l)
    (hmanifest : d'.entry? (s.place d' owner [manifestName]) = some (.file m.indented)) :
    s.Installed owner b m d' := by
  have hplace {k : Location} (hother : ∀ slug, slug ≠ m.slug → ¬ [slug] <+: k)
      (hne : k ≠ [manifestName]) :
      d'.entry? (s.place d₁ owner k) = d₁.entry? (s.place d₁ owner k) := by
    refine hkept _ (fun slug hslug => ?_) fun heq => hne (place_inj.mp heq)
    rw [place_prefix_iff]
    exact hother slug hslug
  have hbelow (k : Location) (slug : String) (hne : slug ≠ m.slug) : ¬ [slug] <+: m.slug :: k :=
    fun hprefix => hne (List.cons_prefix_cons.mp hprefix).1
  refine ⟨?_, hmanifest, fun f hf => ?_⟩
  · refine hstored.isOpen.mono hhome fun k hk hdir => ?_
    rw [hm.stops, List.mem_append, List.mem_pair] at hk
    rcases hk with hk | rfl | rfl
    · have hne : k ≠ s.place d₁ owner [manifestName] :=
        fun heq => hdirect.not_mem_stops owner _ (heq ▸ hk)
      rw [hkept k (fun slug _ => hdirect.not_prefix hk owner [slug]) hne, hdir]
    · rw [hplace (fun slug _ => by simp) (by simp), hdir]
    · have hne : [m.slug] ≠ [manifestName] := by simpa using slug_ne_manifestName hm.isSlug
      rw [hplace (hbelow []) hne, hdir]
  · have hfile := hstored.files f hf
    rw [hm.site, place_append, ← place_congr hstored.home] at hfile
    rw [place_congr hhome, hplace (hbelow [f.1]) (by simp)]
    exact hfile

theorem installed_of_runActs (hm : s.Placed owner m)
    (hprevious : ∀ old ∈ previous, s.Placed owner old) (hdirect : s.Direct d)
    (hrun : runActs d (s.replacing (s.root.join owner) previous b m) = (d', none)) :
    s.Touches owner d d' ∧ s.Installed owner b m d' := by
  rw [replacing_eq] at hrun
  -- three disks: after the files, after the bundle before is removed, after the manifest
  obtain ⟨d₂, hplacing, hwrite⟩ := runActs_append_eq_none.mp hrun
  obtain ⟨d₁, hstore, hclear⟩ := runActs_append_eq_none.mp hplacing
  obtain ⟨d₃, hmanifest, hnil⟩ := runActs_cons_eq_none.mp hwrite
  obtain rfl : d₃ = d' := (Prod.mk.inj hnil).1
  obtain ⟨-, -, -, rfl⟩ := write_join isName_manifestName (perform_run_eq_none hmanifest)
  rw [site_owner hm.isOwner]
  have hstored : Stored m.path b d d₁ := by
    rw [hm.path] at hstore ⊢
    exact stored_of_runActs hm.isSlug.isName hstore
  have htouches : s.Touches owner d d₂ := by
    have hall := (runActs_placing hm hprevious (b := b) (fun _ ha => ha) hdirect).1
    rwa [hplacing] at hall
  obtain ⟨hhome, hkept⟩ := runActs_outdated hm hprevious d₁
  rw [hclear] at hhome hkept
  refine ⟨htouches.trans (touches_set (hdirect.of_home htouches.home) _ _), ?_⟩
  refine installed_of_stored hm (hdirect.of_home hstored.home) hstored hhome
    (fun l hother hne => ?_) ((entry?_set_place d₂ _ _ _).trans (if_pos rfl))
  rw [place_congr hhome, entry?_set (by simp [place]), if_neg hne, hkept l hother]

end Mockup.Store
