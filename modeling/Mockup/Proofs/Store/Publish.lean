import Mockup.Proofs.Store.Replacing

/-! Publishing and deleting keep the invariant. Both touch the directory of their owner only. -/

namespace Mockup.Store

open Files Path Disk

variable {s : Store} {d : Disk} {owner spare time : String} {spec : Spec} {m : Manifest}
  {published : String → Option Manifest}

def manifestFor (s : Store) (spare time owner : String) (spec : Spec) : Manifest :=
  let slug := (Bundle.compile spare spec).slug
  ⟨slug, s.publicUrl owner slug, (s.root.join owner).join slug, time, spec⟩

/-- The manifest of an owner after publishing: the one before if it has the specification. -/
def republished (s : Store) (previous : Option Manifest) (spare time owner : String)
    (spec : Spec) : Manifest :=
  (previous.filter fun m => m.spec.same spec).getD (s.manifestFor spare time owner spec)

theorem manifestFor_eq {slug : String} (h : Slug.ofTitle spare spec.complete.title = slug) :
    s.manifestFor spare time owner spec =
      ⟨slug, s.publicUrl owner slug, (s.root.join owner).join slug, time, spec⟩ := by
  simp only [manifestFor, Bundle.slug_compile, h]

theorem slug_manifestFor (s : Store) (spare time owner : String) (spec : Spec) :
    (s.manifestFor spare time owner spec).slug = (Bundle.compile spare spec).slug := by
  simp only [manifestFor]

theorem spec_manifestFor (s : Store) (spare time owner : String) (spec : Spec) :
    (s.manifestFor spare time owner spec).spec = spec := by
  simp only [manifestFor]

theorem compile_manifestFor (s : Store) (spare time owner : String) (spec : Spec) :
    Bundle.compile (s.manifestFor spare time owner spec).slug
      (s.manifestFor spare time owner spec).spec = Bundle.compile spare spec := by
  rw [slug_manifestFor, spec_manifestFor, Bundle.compile_slug]

theorem genuine_manifestFor (howner : isOwner owner = true) (hspare : Slug.IsSlug spare)
    (hlegible : (s.manifestFor spare time owner spec).Legible) :
    s.Genuine owner (s.manifestFor spare time owner spec) where
  isOwner := howner
  isSlug := by
    rw [slug_manifestFor]
    exact Bundle.isSlug_compile hspare spec
  slug := by rw [compile_manifestFor, slug_manifestFor]
  path := by simp only [manifestFor]
  publicUrl := by simp only [manifestFor]
  parses := hlegible.parse_indented

theorem ownerDir_eq (s : Store) (h : isOwner owner = true) :
    s.ownerDir owner = .ok (s.root.join owner) := if_pos h

namespace Holds

variable (h : s.Holds d published)

include h

theorem isOpen_owner (hm : published owner = some m) : d.IsOpen (s.root.join owner) := by
  have hopen := h.isOpen owner m hm
  have hgenuine := h.genuine owner m hm
  rw [hgenuine.path] at hopen
  exact ((isOpen_join hgenuine.isSlug.isName).mp hopen).1

theorem has_manifest (howner : isOwner owner = true) :
    d.has ((s.root.join owner).join manifestName) = (published owner).isSome := by
  have hentry := h.entries owner howner [manifestName]
  rw [← site_owner howner] at hentry
  cases hm : published owner with
  | none =>
    rw [hm] at hentry
    exact has_join_of_none isName_manifestName hentry
  | some m =>
    rw [hm] at hentry
    exact has_join isName_manifestName (h.isOpen_owner hm) (by decide) hentry

theorem read_manifest (hm : published owner = some m) :
    d.read ((s.root.join owner).join manifestName) = .ok m.indented := by
  have howner := (h.genuine owner m hm).isOwner
  refine read_join isName_manifestName (h.isOpen_owner hm) (by decide) ?_
  rw [site_owner howner, h.entries owner howner, hm]
  rfl

theorem manifestIn_eq (howner : isOwner owner = true) :
    manifestIn d (s.root.join owner) = .ok (published owner) := by
  simp only [manifestIn, h.has_manifest howner]
  cases hm : published owner with
  | none => rfl
  | some m =>
    simp only [h.read_manifest hm, (h.genuine owner m hm).parses, Option.isSome_some, if_true]

theorem loadManifest_eq (howner : isOwner owner = true) :
    s.loadManifest d owner = .ok (published owner) := by
  unfold loadManifest
  rw [ownerDir_eq s howner]
  exact h.manifestIn_eq howner

theorem file_of_mem {f : String × String} (hm : published owner = some m)
    (hf : f ∈ (Bundle.compile m.slug m.spec).files) :
    d.entry? (d.site m.path ++ [f.1]) = some (.file f.2) := by
  have hgenuine := h.genuine owner m hm
  rw [hgenuine.site, place_append, h.entries owner hgenuine.isOwner, hm]
  simp [layout, lookup_files_of_mem hf]

theorem isCurrent_eq (hm : published owner = some m) (spec : Spec) :
    isCurrent d spec m = m.spec.same spec := by
  have hmarkup := h.file_of_mem hm (List.mem_cons_self (l := [_, _]))
  have hname : IsName Bundle.markupFile := isName_of_mem_fileNames (by decide)
  rw [isCurrent, has_join hname (h.isOpen owner m hm) (by decide) hmarkup, Bool.and_true]

end Holds

variable {previous : Option Manifest}

def TellsFault (a : Act StoreError) : Prop :=
  ∃ step failure, a = .perform step failure ∧ ∀ f, (failure f).fault? = some f

theorem tellsFault_of_mem_replacing (hm : s.Placed owner m)
    (hprevious : ∀ old ∈ previous, s.Placed owner old) {b : Bundle} {dir : Path}
    {a : Act StoreError} (ha : a ∈ s.replacing dir previous b m) : TellsFault a := by
  simp only [replacing, storing, List.mem_append, List.mem_cons, List.mem_map, Option.mem_toList,
    Option.map_eq_some_iff, List.not_mem_nil, or_false] at ha
  rcases ha with ((rfl | ⟨f, -, rfl⟩) | ⟨p, hp, rfl⟩) | rfl
  · exact ⟨_, _, rfl, fun _ => rfl⟩
  · exact ⟨_, _, rfl, fun _ => rfl⟩
  · cases previous with
    | none => simp [outdated] at hp
    | some old =>
      have hold := hprevious old rfl
      rw [outdated_eq hm hold] at hp
      split at hp
      · cases hp
      · obtain rfl := Option.some.inj hp
        exact ⟨_, _, deleting_eq hold, fun _ => rfl⟩
  · exact ⟨_, _, rfl, fun _ => rfl⟩

theorem fault_of_runActs {as : List (Act StoreError)} {d' : Disk} {e : StoreError}
    (has : ∀ a ∈ as, TellsFault a) (hrun : runActs d as = (d', some e)) :
    ∃ f, e.fault? = some f := by
  rcases error_of_runActs hrun with hrefuse | ⟨step, failure, f, hperform, rfl⟩
  · obtain ⟨_, _, heq, -⟩ := has _ hrefuse
    cases heq
  · obtain ⟨_, _, heq, hfault⟩ := has _ hperform
    cases heq
    exact ⟨f, hfault f⟩

theorem fault_of_replacing (hm : s.Placed owner m)
    (hprevious : ∀ old ∈ previous, s.Placed owner old) {b : Bundle} {dir : Path} {d' : Disk}
    {e : StoreError} (hrun : runActs d (s.replacing dir previous b m) = (d', some e)) :
    ∃ f, e.fault? = some f :=
  fault_of_runActs (fun _ => tellsFault_of_mem_replacing hm hprevious) hrun

theorem Holds.current_eq (h : s.Holds d published) (owner : String) (spec : Spec) :
    (published owner).filter (isCurrent d spec) =
      (published owner).filter fun m => m.spec.same spec := by
  cases hm : published owner with
  | none => rfl
  | some m => simp only [Option.filter_some, h.isCurrent_eq hm]

/-- What is published already is left as it is. -/
theorem Holds.publish_of_same (h : s.Holds d published) (howner : isOwner owner = true)
    (hm : ((published owner).filter fun m => m.spec.same spec) = some m) :
    s.publish d spare time owner spec = (.ok ⟨m.slug, m.publicUrl, m.path, true⟩, d) := by
  simp only [publish, ownerDir_eq s howner, h.manifestIn_eq howner, h.current_eq, hm]

theorem Holds.publish_of_new (h : s.Holds d published) (howner : isOwner owner = true)
    (hm : s.manifestFor spare time owner spec = m)
    (hnew : ((published owner).filter fun m => m.spec.same spec) = none) :
    s.publish d spare time owner spec = finish ⟨m.slug, m.publicUrl, m.path, false⟩
      (runActs d (s.replacing (s.root.join owner) (published owner)
        (Bundle.compile m.slug m.spec) m)) := by
  rw [← hm, compile_manifestFor]
  simp only [publish, ownerDir_eq s howner, h.manifestIn_eq howner, h.current_eq, hnew, manifestFor]

theorem Holds.publish (h : s.Holds d published) (hdirect : s.Direct d)
    (howner : isOwner owner = true) (hspare : Slug.IsSlug spare)
    (hlegible : (s.manifestFor spare time owner spec).Legible)
    (hworks : ∀ e, (s.publish d spare time owner spec).1 = .error e → e.fault? = none) :
    s.Touches owner d (s.publish d spare time owner spec).2 ∧
      s.Holds (s.publish d spare time owner spec).2 (Function.update published owner
        (some (s.republished (published owner) spare time owner spec))) := by
  unfold republished
  cases hreuse : (published owner).filter fun m => m.spec.same spec with
  | some m =>
    obtain ⟨hm, -⟩ := Option.filter_eq_some_iff.mp hreuse
    rw [h.publish_of_same howner hreuse, Option.getD_some, ← hm, Function.update_eq_self]
    exact ⟨.refl s owner d, h⟩
  | none =>
    have hm := genuine_manifestFor howner hspare hlegible
    rw [Option.getD_none]
    generalize hnew : s.manifestFor spare time owner spec = m at hm ⊢
    rw [h.publish_of_new howner hnew hreuse] at hworks ⊢
    rcases hrun : runActs d (s.replacing (s.root.join owner) (published owner)
      (Bundle.compile m.slug m.spec) m) with ⟨d', _ | e⟩
    · exact h.replacing hdirect hm hrun
    · -- a failure would be a fault of the disk, and there is none
      obtain ⟨f, hf⟩ := fault_of_replacing hm.toPlaced
        (fun old hold => (h.genuine owner old hold).toPlaced) hrun
      rw [hrun] at hworks
      rw [hworks e rfl] at hf
      cases hf

theorem Holds.has_owner (h : s.Holds d published) (howner : isOwner owner = true) :
    d.has (s.root.join owner) = (published owner).isSome := by
  have hentry := h.entries owner howner []
  have hname := isName_of_isOwner howner
  cases hm : published owner with
  | none =>
    rw [hm] at hentry
    exact has_join_of_none hname hentry
  | some m =>
    obtain ⟨hopen, hshort, hdir⟩ := (isOpen_join hname).mp (h.isOpen_owner hm)
    exact has_join hname hopen hshort hdir

theorem Holds.deleteOwner_eq (h : s.Holds d published) (howner : isOwner owner = true) :
    s.deleteOwner d owner =
      if (published owner).isSome then (.ok true, d.removeTree (s.place d owner []))
      else (.ok false, d) := by
  have hhas := h.has_owner howner
  unfold Store.deleteOwner
  rw [ownerDir_eq s howner]
  cases hm : published owner with
  | none =>
    rw [hm] at hhas
    simp only [hhas, Option.isSome_none, Bool.false_eq_true, if_false]
  | some m =>
    rw [hm] at hhas
    have hremoved := removeDir_join (isName_of_isOwner howner) (h.isOpen_owner hm)
    have hplace : d.site s.root ++ [owner] = s.place d owner [] := rfl
    rw [hplace] at hremoved
    simp only [hhas, Option.isSome_some, if_true, Act.run, Step.run, hremoved, finish]

theorem Holds.deleteOwner (h : s.Holds d published) (hdirect : s.Direct d)
    (howner : isOwner owner = true) :
    s.Touches owner d (s.deleteOwner d owner).2 ∧
      s.Holds (s.deleteOwner d owner).2 (Function.update published owner none) := by
  rw [h.deleteOwner_eq howner]
  cases hm : published owner with
  | none =>
    rw [Option.isSome_none, if_neg Bool.false_ne_true, ← hm, Function.update_eq_self]
    exact ⟨.refl s owner d, h⟩
  | some m =>
    have hentry := entry?_removeTree (d := d) (l := s.place d owner []) (by simp [place])
    have htouches : s.Touches owner d (d.removeTree (s.place d owner [])) := by
      refine ⟨rfl, fun k hk hdir => ?_, fun k hk _ => ?_⟩
      · rw [hentry, if_neg (hdirect.not_prefix hk owner []), hdir]
      · rw [hentry, if_neg hk]
    refine ⟨htouches, h.of_touches hdirect htouches (fun m' hm' => ?_) fun k => ?_⟩
    · cases hm'
    · rw [hentry, if_pos (place_prefix_iff.mpr List.nil_prefix)]
      rfl

end Mockup.Store
