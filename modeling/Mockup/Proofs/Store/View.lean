import Mockup.Proofs.Files.Way
import Mockup.Proofs.Store.Confined

/-! What an operation looks at. It looks at the way to the root and into the directory of its owner,
and once the way to the root is made it changes the directory only; so two operations of different
owners come to the same in either order. -/

namespace Mockup.Store

open Files Path Disk

variable {s : Store} {d d' d₀ : Disk} {owner other spare time : String} {spec : Spec} {m : Manifest}
  {previous : Option Manifest} {b : Bundle} {a : Act StoreError} {l : Location}

def view (s : Store) (d : Disk) (owner : String) : Set Location :=
  {l | l ∈ d.stops s.root ∨ s.place d owner [] <+: l}

def outside (s : Store) (d : Disk) (owner : String) : Set Location :=
  {l | ¬ s.place d owner [] <+: l}

theorem outside_congr (h : d'.home = d.home) : s.outside d' owner = s.outside d owner := by
  simp only [outside, place_congr h]

theorem place_mem_view (s : Store) (d : Disk) (owner : String) (k : Location) :
    s.place d owner k ∈ s.view d owner := .inr (s.place_nil_prefix d owner k)

theorem Direct.view_outside (hdirect : s.Direct d) (hne : other ≠ owner) (hl : l ∈ s.view d other) :
    l ∈ s.outside d owner := by
  rcases hl with hstop | hbelow
  · exact hdirect.not_prefix hstop owner []
  · intro howner
    -- both are on the way down to the same place, and equally far
    have hlength : (s.place d owner []).length ≤ (s.place d other []).length := by simp [place]
    exact not_place_prefix_of_ne hne [] (List.prefix_of_prefix_length_le howner hbelow hlength)

theorem looks_owner (howner : isOwner owner = true) :
    ∀ l ∈ d.looks (s.root.join owner), l ∈ s.view d owner := by
  intro l hl
  rw [looks_join (isName_of_isOwner howner), stops_join (isName_of_isOwner howner),
    List.mem_append, List.mem_singleton] at hl
  rcases hl with hstop | rfl
  · exact .inl hstop
  · exact s.place_mem_view d owner []

theorem looks_in_owner (howner : isOwner owner = true) {name : String} (hname : IsName name) :
    ∀ l ∈ d.looks ((s.root.join owner).join name), l ∈ s.view d owner := by
  intro l hl
  rw [looks_join hname, stops_join hname, site_owner howner,
    ← looks_join (isName_of_isOwner howner), List.mem_append, List.mem_singleton] at hl
  rcases hl with hl | rfl
  · exact looks_owner howner l hl
  · exact s.place_mem_view d owner _

theorem Placed.looks (hm : s.Placed owner m) : ∀ l ∈ d.looks m.path, l ∈ s.view d owner := by
  rw [hm.path]
  exact looks_in_owner hm.isOwner hm.isSlug.isName

theorem Placed.looks_join (hm : s.Placed owner m) {name : String} (hname : IsName name) :
    ∀ l ∈ d.looks (m.path.join name), l ∈ s.view d owner := by
  intro l hl
  rw [Disk.looks_join hname, stops_join hname, hm.site, place_append, List.mem_append,
    List.mem_singleton] at hl
  rcases hl with hl | rfl
  · rw [hm.path, ← Disk.looks_join hm.isSlug.isName, ← hm.path] at hl
    exact hm.looks l hl
  · exact s.place_mem_view d owner _

theorem looks_of_mem_replacing (hm : s.Placed owner m)
    (hprevious : ∀ old ∈ previous, s.Placed owner old)
    (ha : a ∈ s.replacing (s.root.join owner) previous b m) {p : Path} (hp : p ∈ a.path?) :
    ∀ l ∈ d.looks p, l ∈ s.view d owner := by
  simp only [replacing, storing, List.mem_append, List.mem_cons, List.mem_map, Option.mem_toList,
    Option.map_eq_some_iff, List.not_mem_nil, or_false] at ha
  rcases ha with ((rfl | ⟨f, hf, rfl⟩) | ⟨q, hq, rfl⟩) | rfl
  · cases hp
    exact hm.looks
  · cases hp
    exact hm.looks_join (isName_of_mem_files hf)
  · cases previous with
    | none => simp [outdated] at hq
    | some old =>
      have hold := hprevious old rfl
      rw [outdated_eq hm hold] at hq
      split at hq
      · cases hq
      · cases hq
        rw [deleting_eq hold] at hp
        cases hp
        exact hold.looks
  · cases hp
    exact looks_in_owner hm.isOwner isName_manifestName

/-- The way to the root is made as far as it can be, and a manifest that is found for the owner is
of a bundle in the directory of the owner. -/
structure Settled (s : Store) (owner : String) (d : Disk) : Prop where
  direct : s.Direct d
  paved : d.Paved s.root
  placed : ∀ m, s.loadManifest d owner = .ok (some m) → s.Placed owner m

theorem Settled.of_agree (h : s.Settled owner d) (howner : isOwner owner = true)
    (hagree : Agree (s.view d owner) d d') : s.Settled owner d' where
  direct := h.direct.of_home hagree.home
  paved := h.paved.of_agree (hagree.mono fun _ hl => .inl hl)
  placed := by
    rw [loadManifest_agree hagree (looks_in_owner howner isName_manifestName)]
    exact h.placed

theorem outside_of_mem (hm : s.Placed owner m) (hprevious : ∀ old ∈ previous, s.Placed owner old)
    (ha : a ∈ s.replacing (s.root.join owner) previous b m) (hpaved : d.Paved s.root) :
    Agree (s.outside d owner) d (a.run d).1 := by
  have hset (k : Location) (x : Entry) :
      Agree (s.outside d owner) d (d.set (s.place d owner k) x) := by
    refine ⟨rfl, fun l hl => ?_⟩
    have hne : l ≠ s.place d owner k := fun heq => hl (heq ▸ s.place_nil_prefix d owner k)
    rw [entry?_set (by simp [place]), if_neg hne]
  rcases List.mem_append.mp ha with ha | ha
  · rcases List.mem_append.mp ha with ha | ha
    · rcases List.mem_cons.mp ha with rfl | ha
      · rw [perform_run_fst, hm.path]
        refine ⟨home_run _ _, fun l hl => ?_⟩
        refine hpaved.entry?_run_makeDirs (isName_of_isOwner hm.isOwner) hm.isSlug.isName ?_ ?_
        · rintro rfl
          exact hl (s.place_nil_prefix d owner [])
        · rintro rfl
          exact hl (s.place_nil_prefix d owner [m.slug])
      · obtain ⟨f, hf, rfl⟩ := List.mem_map.mp ha
        rw [writing, perform_run_fst, Step.run]
        rcases put_join_cases (d := d) (p := m.path) (isName_of_mem_files hf) fun _ => f.2 with
          ⟨text, hput⟩ | ⟨fault, hput⟩
        · rw [hput, hm.site, place_append]
          exact hset _ _
        · rw [hput]
          exact .refl _ d
    · rcases effect_of_mem_outdated hm hprevious ha d with hkept | ⟨slug, -, -, hremoved⟩
      · rw [hkept]
        exact .refl _ d
      · rw [hremoved]
        refine ⟨rfl, fun l hl => ?_⟩
        rw [entry?_removeTree (by simp [place]),
          if_neg fun hprefix => hl ((s.place_nil_prefix d owner _).trans hprefix)]
  · rw [List.mem_singleton.mp ha]
    rcases run_writing_manifest (s := s) hm.isOwner m.indented d with hkept | ⟨x, hput⟩
    · rw [hkept]
      exact .refl _ d
    · rw [hput]
      exact hset _ x

theorem outside_of_runActs (hm : s.Placed owner m)
    (hprevious : ∀ old ∈ previous, s.Placed owner old) {as : List (Act StoreError)}
    (has : ∀ a ∈ as, a ∈ s.replacing (s.root.join owner) previous b m) (hdirect : s.Direct d)
    (hpaved : d.Paved s.root) : Agree (s.outside d owner) d (runActs d as).1 := by
  refine runActs_induction (R := fun d d' => s.Direct d → d.Paved s.root →
    Agree (s.outside d owner) d d') (fun d _ _ => .refl _ d) (fun d d₁ d' h h' hdirect hpaved => ?_)
    (fun a ha d _ hpaved => outside_of_mem hm hprevious (has a ha) hpaved) d hdirect hpaved
  have hagree := h hdirect hpaved
  have hpaved₁ := hpaved.of_agree (hagree.mono fun l hl => hdirect.not_prefix hl owner [])
  have hagree' := h' (hdirect.of_home hagree.home) hpaved₁
  rw [outside_congr hagree.home] at hagree'
  exact hagree.trans hagree'

namespace Op

variable {f g : Op}

def call : Op → Call
  | publish spare time owner spec => .publish spare time owner spec
  | deleteOwner owner => .deleteOwner owner

def answer (s : Store) (d : Disk) : Op → Except StoreError (PublishedBundle ⊕ Bool)
  | publish spare time owner spec => (s.publish d spare time owner spec).1.map .inl
  | deleteOwner owner => (s.deleteOwner d owner).1.map .inr

theorem run_call (f : Op) (s : Store) (d : Disk) : f.call.run s d = f.run s d := by
  cases f <;> rfl

theorem target_call (f : Op) : f.call.target = f.target := by
  cases f <;> rfl

theorem answer_of_not_isOwner (h : ¬ isOwner f.target = true) (s : Store) (d : Disk) :
    f.answer s d = .error (.invalidOwner f.target) ∧ f.run s d = d := by
  cases f with
  | publish spare time owner spec =>
    have hpublish := (publish_of_error (loadManifest_of_not_isOwner (s := s) h d) spare time spec).2
    rw [target] at hpublish
    rw [answer, run, hpublish]
    exact ⟨rfl, rfl⟩
  | deleteOwner owner =>
    rw [target] at h ⊢
    rw [answer, run, Store.deleteOwner, ownerDir_eq_error s h]
    exact ⟨rfl, rfl⟩

theorem agree (hsettled : s.Settled f.target d) (howner : isOwner f.target = true)
    (hsound : f.call.Sound) (h : Agree (s.view d f.target) d d') :
    f.answer s d' = f.answer s d ∧ Agree (s.view d f.target) (f.run s d) (f.run s d') := by
  cases f with
  | publish spare time owner spec =>
    rw [target] at hsettled howner h ⊢
    have hasked : ∀ p ∈ s.asked d owner, ∀ l ∈ d.looks p, l ∈ s.view d owner := by
      refine List.forall_mem_cons.mpr ⟨looks_in_owner howner isName_manifestName, ?_⟩
      split
      · next m hload =>
        rw [List.forall_mem_singleton]
        exact (hsettled.placed m hload).looks_join (isName_of_mem_fileNames (by decide))
      · exact List.forall_mem_nil _
    have hacts : ∀ p ∈ (s.acts d spare time owner spec).filterMap Act.path?, ∀ l ∈ d.looks p,
        l ∈ s.view d owner := by
      intro p hp
      obtain ⟨a, ha, hpath⟩ := List.mem_filterMap.mp hp
      rcases s.acts_eq_nil_or d spare time owner spec with hnil | ⟨previous, hload, heq⟩
      · rw [hnil] at ha
        cases ha
      · rw [heq] at ha
        refine looks_of_mem_replacing (placed_manifestFor howner hsound time spec) ?_ ha hpath
        rintro m rfl
        exact hsettled.placed m hload
    obtain ⟨hanswer, hrun⟩ := publish_agree h (List.forall_mem_append.mpr ⟨hasked, hacts⟩)
    rw [answer, answer, hanswer]
    exact ⟨rfl, hrun⟩
  | deleteOwner owner =>
    rw [target] at howner h ⊢
    obtain ⟨hanswer, hrun⟩ := deleteOwner_agree h (looks_owner howner)
    rw [answer, answer, hanswer]
    exact ⟨rfl, hrun⟩

theorem outside (hsettled : s.Settled f.target d) (howner : isOwner f.target = true)
    (hsound : f.call.Sound) : Agree (s.outside d f.target) d (f.run s d) := by
  cases f with
  | publish spare time owner spec =>
    rw [target] at hsettled howner ⊢
    rw [run, publish_snd]
    rcases s.acts_eq_nil_or d spare time owner spec with hnil | ⟨previous, hload, hacts⟩
    · rw [hnil]
      exact .refl _ d
    · rw [hacts]
      refine outside_of_runActs (placed_manifestFor howner hsound time spec) ?_
        (fun _ ha => ha) hsettled.direct hsettled.paved
      rintro m rfl
      exact hsettled.placed m hload
  | deleteOwner owner =>
    rw [target] at howner ⊢
    rw [run]
    rcases deleteOwner_erases (s := s) howner d with hkept | ⟨hhome, hentries⟩
    · rw [hkept]
      exact .refl _ d
    · exact ⟨hhome, fun l hl => by rw [hentries, if_neg hl]⟩

/-- In either order, both operations answer the same and the same is on the disk afterwards. -/
structure Commute (s : Store) (d : Disk) (f g : Op) : Prop where
  first : f.answer s (g.run s d) = f.answer s d
  second : g.answer s (f.run s d) = g.answer s d
  files : Agree Set.univ (g.run s (f.run s d)) (f.run s (g.run s d))

theorem Commute.symm (h : Commute s d f g) : Commute s d g f := ⟨h.second, h.first, h.files.symm⟩

theorem commute_of_settled (hf : s.Settled f.target d) (hg : s.Settled g.target d)
    (hfOwner : isOwner f.target = true) (hgOwner : isOwner g.target = true)
    (hfSound : f.call.Sound) (hgSound : g.call.Sound) (hne : f.target ≠ g.target) :
    Commute s d f g := by
  have hfOut := outside hf hfOwner hfSound
  have hgOut := outside hg hgOwner hgSound
  have hfView : Agree (s.view d g.target) d (f.run s d) :=
    hfOut.mono fun l hl => hf.direct.view_outside hne.symm hl
  have hgView : Agree (s.view d f.target) d (g.run s d) :=
    hgOut.mono fun l hl => hf.direct.view_outside hne hl
  obtain ⟨hfAnswer, hfRun⟩ := agree hf hfOwner hfSound hgView
  obtain ⟨hgAnswer, hgRun⟩ := agree hg hgOwner hgSound hfView
  have hfOut' := outside (hf.of_agree hfOwner hgView) hfOwner hfSound
  have hgOut' := outside (hg.of_agree hgOwner hfView) hgOwner hgSound
  rw [outside_congr hgView.home] at hfOut'
  rw [outside_congr hfView.home] at hgOut'
  refine ⟨hfAnswer, hgAnswer, ⟨?_, fun l _ => ?_⟩⟩
  · rw [hfOut'.home, hgOut'.home, hfView.home, hgView.home]
  -- the directory of the one owner, that of the other, and all else
  · by_cases hfl : s.place d f.target [] <+: l
    · have hl : l ∈ s.view d f.target := .inr hfl
      rw [hfRun.entries l hl, hgOut'.entries l (hf.direct.view_outside hne hl)]
    · rw [hfOut'.entries l hfl]
      by_cases hgl : s.place d g.target [] <+: l
      · rw [hgRun.entries l (.inr hgl)]
      · rw [hgOut'.entries l hgl, hfOut.entries l hfl, hgOut.entries l hgl]

theorem commute_of_not_isOwner (h : ¬ isOwner f.target = true) (g : Op) : Commute s d f g := by
  obtain ⟨hanswer, hrun⟩ := answer_of_not_isOwner h s d
  obtain ⟨hanswer', hrun'⟩ := answer_of_not_isOwner h s (g.run s d)
  refine ⟨hanswer'.trans hanswer.symm, by rw [hrun], ?_⟩
  rw [hrun, hrun']
  exact .refl _ _

end Op

end Mockup.Store
