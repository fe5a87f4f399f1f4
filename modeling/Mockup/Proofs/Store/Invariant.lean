import Mathlib.Logic.Function.Basic
import Mockup.Proofs.Store.Acts
import Mockup.Proofs.Store.Manifest

/-! What the store keeps true. For every owner the manifest of what was last published is all that
is needed to say what lies in the directory of the owner. -/

namespace Mockup.Store

open Files Path Disk

variable {s : Store} {d d' : Disk} {owner : String} {m : Manifest}
  {published : String → Option Manifest}

theorem isName_of_isOwner (h : isOwner owner = true) : IsName owner := by
  rw [isOwner, Bool.and_eq_true, List.all_eq_true, decide_eq_true_eq] at h
  exact isName_of_forall h.1 h.2 (by decide) (by decide) (by decide)

theorem isName_manifestName : IsName manifestName :=
  ⟨by decide, by decide, by decide, by decide⟩

theorem slug_ne_manifestName {slug : String} (h : Slug.IsSlug slug) : slug ≠ manifestName :=
  h.ne_of_mem (by decide : '.' ∈ manifestName.toList) (by decide)

def layout (m : Manifest) : Location → Option Entry
  | [] => some .dir
  | [name] =>
    if name = manifestName then some (.file m.indented)
    else if name = m.slug then some .dir
    else none
  | [dir, name] =>
    if dir = m.slug then ((Bundle.compile m.slug m.spec).files.lookup name).map .file else none
  | _ => none

def place (s : Store) (d : Disk) (owner : String) (k : Location) : Location :=
  d.site s.root ++ owner :: k

theorem place_inj {j k : Location} : s.place d owner j = s.place d owner k ↔ j = k := by
  simp [place]

theorem place_prefix_iff {j k : Location} :
    s.place d owner j <+: s.place d owner k ↔ j <+: k := by
  rw [place, place, List.prefix_append_right_inj, List.prefix_cons_inj]

theorem site_owner (h : isOwner owner = true) (d : Disk) (name : String) :
    d.site (s.root.join owner) ++ [name] = s.place d owner [name] := by
  rw [site_join (isName_of_isOwner h), place, List.append_assoc]
  rfl

/-- The manifest is of a bundle in the directory of the owner. -/
structure Placed (s : Store) (owner : String) (m : Manifest) : Prop where
  isOwner : isOwner owner = true
  isSlug : Slug.IsSlug m.slug
  path : m.path = (s.root.join owner).join m.slug

/-- The manifest is one that publishing writes for the owner, and its text can be read. -/
structure Genuine (s : Store) (owner : String) (m : Manifest) : Prop extends s.Placed owner m where
  slug : (Bundle.compile m.slug m.spec).slug = m.slug
  publicUrl : m.publicUrl = s.publicUrl owner m.slug
  parses : Manifest.parse m.indented = .ok m

/-- The disk holds what was published, and nothing else in the directories of owners. -/
structure Holds (s : Store) (d : Disk) (published : String → Option Manifest) : Prop where
  genuine : ∀ owner m, published owner = some m → s.Genuine owner m
  isOpen : ∀ owner m, published owner = some m → d.IsOpen m.path
  entries : ∀ owner, isOwner owner = true → ∀ k,
    d.entry? (s.place d owner k) = (published owner).bind (layout · k)

/-- The way to the root does not lead through what is below it. -/
def Direct (s : Store) (d : Disk) : Prop := ∀ k, d.site s.root ++ k ∈ d.stops s.root → k = []

structure Touches (s : Store) (owner : String) (d d' : Disk) : Prop where
  home : d'.home = d.home
  dirs : ∀ k ∈ d.stops s.root, d.entry? k = some .dir → d'.entry? k = some .dir
  others : ∀ k, ¬ s.place d owner [] <+: k → k ∉ d.stops s.root → d'.entry? k = d.entry? k

theorem Touches.refl (s : Store) (owner : String) (d : Disk) : s.Touches owner d d :=
  ⟨rfl, fun _ _ hk => hk, fun _ _ _ => rfl⟩

theorem Direct.of_home (h : s.Direct d) (hhome : d'.home = d.home) : s.Direct d' := by
  intro k hk
  rw [site_congr hhome, stops_congr hhome] at hk
  exact h k hk

theorem place_congr (h : d'.home = d.home) (k : Location) :
    s.place d' owner k = s.place d owner k := by
  unfold place
  rw [site_congr h]

theorem not_place_prefix_of_ne {other : String} (h : other ≠ owner) (k : Location) :
    ¬ s.place d owner [] <+: s.place d other k := by
  unfold place
  rw [List.prefix_append_right_inj]
  intro hprefix
  exact h (List.cons_prefix_cons.mp hprefix).1.symm

theorem Direct.not_mem_stops (h : s.Direct d) (owner : String) (k : Location) :
    s.place d owner k ∉ d.stops s.root := fun hk => List.cons_ne_nil _ _ (h _ hk)

theorem Touches.entry?_of_ne (h : s.Touches owner d d') (hdirect : s.Direct d) {other : String}
    (hne : other ≠ owner) (k : Location) :
    d'.entry? (s.place d other k) = d.entry? (s.place d other k) :=
  h.others _ (not_place_prefix_of_ne hne k) (hdirect.not_mem_stops other k)

theorem Placed.site (h : s.Placed owner m) (d : Disk) :
    d.site m.path = s.place d owner [m.slug] := by
  rw [h.path, site_join h.isSlug.isName, site_owner h.isOwner]

theorem Placed.stops (h : s.Placed owner m) (d : Disk) :
    d.stops m.path = d.stops s.root ++ [s.place d owner [], s.place d owner [m.slug]] := by
  have howner := isName_of_isOwner h.isOwner
  rw [h.path, stops_join h.isSlug.isName, stops_join howner, site_owner h.isOwner,
    List.append_assoc]
  rfl

/-- The step of the invariant: what is known of one owner carries over to the whole disk. -/
theorem Holds.of_touches (h : s.Holds d published) (hdirect : s.Direct d)
    (htouches : s.Touches owner d d') {next : Option Manifest}
    (hnext : ∀ m, next = some m → s.Genuine owner m ∧ d'.IsOpen m.path)
    (hentries : ∀ k, d'.entry? (s.place d owner k) = next.bind (layout · k)) :
    s.Holds d' (Function.update published owner next) := by
  refine ⟨fun other m hm => ?_, fun other m hm => ?_, fun other hother k => ?_⟩
  · by_cases heq : other = owner
    · subst heq
      exact (hnext m (by simpa using hm)).1
    · exact h.genuine other m (by simpa [heq] using hm)
  · by_cases heq : other = owner
    · subst heq
      exact (hnext m (by simpa using hm)).2
    · have hm' : published other = some m := by simpa [heq] using hm
      -- the way to the bundle of another owner is the way to the root and two places below
      refine (h.isOpen other m hm').mono htouches.home fun k hk hdir => ?_
      rw [(h.genuine other m hm').stops, List.mem_append, List.mem_pair] at hk
      rcases hk with hk | rfl | rfl
      · exact htouches.dirs k hk hdir
      · rwa [htouches.entry?_of_ne hdirect heq]
      · rwa [htouches.entry?_of_ne hdirect heq]
  · rw [place_congr htouches.home]
    by_cases heq : other = owner
    · subst heq
      rw [hentries, Function.update_self]
    · rw [htouches.entry?_of_ne hdirect heq, h.entries other hother, Function.update_of_ne heq]

end Mockup.Store
