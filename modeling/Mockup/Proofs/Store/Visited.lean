import Mockup.Proofs.Files.Agree
import Mockup.Proofs.Store.Call

/-! The paths that publishing and deleting follow. What they answer and what they do is settled by
the places looked at on these paths, whatever else is on the disk. -/

namespace Mockup.Store

open Files Path Disk

variable {s : Store} {d d' : Disk} {P : Set Location} {owner spare time : String} {spec : Spec}
  {previous : Option Manifest}

def asked (s : Store) (d : Disk) (owner : String) : List Path :=
  (s.root.join owner).join manifestName ::
    match s.loadManifest d owner with
    | .ok (some m) => [m.path.join Bundle.markupFile]
    | _ => []

def visited (s : Store) (d : Disk) (spare time owner : String) (spec : Spec) : List Path :=
  s.asked d owner ++ (s.acts d spare time owner spec).filterMap Act.path?

theorem finish_fst {α : Type} (x : α) (r : Disk × Option StoreError) :
    (finish x r).1 = match r.2 with | none => .ok x | some e => .error e := by
  rcases r with ⟨d, _ | e⟩ <;> rfl

theorem finish_snd {α : Type} (x : α) (r : Disk × Option StoreError) : (finish x r).2 = r.1 := by
  rcases r with ⟨d, _ | e⟩ <;> rfl

theorem acts_eq_nil_or (s : Store) (d : Disk) (spare time owner : String) (spec : Spec) :
    s.acts d spare time owner spec = [] ∨ ∃ previous, s.loadManifest d owner = .ok previous ∧
      s.acts d spare time owner spec = s.replacing (s.root.join owner) previous
        (Bundle.compile spare spec) (s.manifestFor spare time owner spec) := by
  unfold acts
  cases s.loadManifest d owner with
  | error e => exact .inl rfl
  | ok previous =>
    dsimp only
    split
    · exact .inl rfl
    · exact .inr ⟨previous, rfl, rfl⟩

theorem publish_snd (s : Store) (d : Disk) (spare time owner : String) (spec : Spec) :
    (s.publish d spare time owner spec).2 = (runActs d (s.acts d spare time owner spec)).1 := by
  cases hload : s.loadManifest d owner with
  | error e =>
    obtain ⟨hacts, hpublish⟩ := publish_of_error hload spare time spec
    rw [hacts, hpublish]
    rfl
  | ok previous =>
    rcases publish_cases (isOwner_of_load hload) hload spare time spec with
      ⟨m, -, -, hacts, hpublish⟩ | ⟨-, -, hpublish⟩
    · rw [hacts, hpublish]
      rfl
    · rw [hpublish, finish_snd]

theorem publish_of_filter (howner : isOwner owner = true)
    (hload : s.loadManifest d owner = .ok previous)
    (hnone : previous.filter (isCurrent d spec) = none) (spare time : String) :
    let m := s.manifestFor spare time owner spec
    s.publish d spare time owner spec = finish ⟨m.slug, m.publicUrl, m.path, false⟩
      (runActs d (s.replacing (s.root.join owner) previous (Bundle.compile spare spec) m)) := by
  rcases publish_cases howner hload spare time spec with ⟨m, hm, hcurrent, -⟩ | ⟨-, hacts, hpublish⟩
  · rw [hm, Option.filter_some, if_pos hcurrent] at hnone
    cases hnone
  · rw [hpublish, hacts]

theorem loadManifest_agree (h : Agree P d d')
    (hp : ∀ l ∈ d.looks ((s.root.join owner).join manifestName), l ∈ P) :
    s.loadManifest d' owner = s.loadManifest d owner := by
  unfold loadManifest ownerDir
  split
  · rfl
  · next dir hdir =>
    split at hdir
    · cases hdir
      simp only [manifestIn, h.has hp, h.read hp]
    · cases hdir

theorem filter_isCurrent_agree (h : Agree P d d')
    (hp : ∀ m ∈ previous, ∀ l ∈ d.looks (m.path.join Bundle.markupFile), l ∈ P) (spec : Spec) :
    previous.filter (isCurrent d' spec) = previous.filter (isCurrent d spec) := by
  cases previous with
  | none => rfl
  | some m =>
    have hcurrent : isCurrent d' spec m = isCurrent d spec m := by
      simp only [isCurrent, h.has (hp m rfl)]
    rw [Option.filter_some, Option.filter_some, hcurrent]

theorem markup_mem_asked {m : Manifest} (hload : s.loadManifest d owner = .ok (some m)) :
    m.path.join Bundle.markupFile ∈ s.asked d owner := by
  rw [asked, hload]
  exact List.mem_cons_of_mem _ (List.mem_singleton_self _)

theorem acts_agree (h : Agree P d d') (hp : ∀ p ∈ s.asked d owner, ∀ l ∈ d.looks p, l ∈ P)
    (spare time : String) (spec : Spec) :
    s.acts d' spare time owner spec = s.acts d spare time owner spec := by
  unfold acts
  rw [loadManifest_agree h (hp _ List.mem_cons_self)]
  cases hload : s.loadManifest d owner with
  | error e => rfl
  | ok previous =>
    dsimp only
    rw [filter_isCurrent_agree h]
    rintro m ⟨⟩
    exact hp _ (markup_mem_asked hload)

theorem publish_agree (h : Agree P d d')
    (hp : ∀ p ∈ s.visited d spare time owner spec, ∀ l ∈ d.looks p, l ∈ P) :
    (s.publish d' spare time owner spec).1 = (s.publish d spare time owner spec).1 ∧
      Agree P (s.publish d spare time owner spec).2 (s.publish d' spare time owner spec).2 := by
  obtain ⟨hasked, hdone⟩ := List.forall_mem_append.mp hp
  have hload' := loadManifest_agree h (hasked _ List.mem_cons_self)
  cases hload : s.loadManifest d owner with
  | error e =>
    rw [hload] at hload'
    rw [(publish_of_error hload _ _ _).2, (publish_of_error hload' _ _ _).2]
    exact ⟨rfl, h⟩
  | ok previous =>
    rw [hload] at hload'
    have howner := isOwner_of_load hload
    have hsame : previous.filter (isCurrent d' spec) = previous.filter (isCurrent d spec) := by
      refine filter_isCurrent_agree h ?_ spec
      rintro m ⟨⟩
      exact hasked _ (markup_mem_asked hload)
    have hacts := acts_agree h hasked spare time spec
    rcases publish_cases howner hload spare time spec with
      ⟨m, rfl, hm, -, hpublish⟩ | ⟨hnone, -, hpublish⟩
    · rcases publish_cases howner hload' spare time spec with
        ⟨m', hm', -, -, hpublish'⟩ | ⟨hnone', -⟩
      · cases hm'
        rw [hpublish, hpublish']
        exact ⟨rfl, h⟩
      · rw [hsame, Option.filter_some, if_pos hm] at hnone'
        cases hnone'
    · rcases publish_cases howner hload' spare time spec with
        ⟨m', rfl, hm', -⟩ | ⟨-, -, hpublish'⟩
      · rw [← hsame, Option.filter_some, if_pos hm'] at hnone
        cases hnone
      · have hvisited : ∀ a ∈ s.acts d spare time owner spec, ∀ p ∈ a.path?,
            ∀ k ∈ d.looks p, k ∈ P := fun a ha p hpath =>
          hdone p (List.mem_filterMap.mpr ⟨a, ha, hpath⟩)
        obtain ⟨herror, hagree⟩ := h.runActs hvisited
        rw [hpublish, hpublish', hacts, finish_fst, finish_fst, finish_snd, finish_snd, herror]
        exact ⟨rfl, hagree⟩

theorem deleteOwner_agree (h : Agree P d d') (hp : ∀ l ∈ d.looks (s.root.join owner), l ∈ P) :
    (s.deleteOwner d' owner).1 = (s.deleteOwner d owner).1 ∧
      Agree P (s.deleteOwner d owner).2 (s.deleteOwner d' owner).2 := by
  unfold Store.deleteOwner ownerDir
  split
  · exact ⟨rfl, h⟩
  · next dir hdir =>
    split at hdir
    · cases hdir
      rw [h.has hp]
      split
      · obtain ⟨herror, hagree⟩ := h.run_act (a := .perform (.removeDir (s.root.join owner))
          (StoreError.cannotRemove (s.root.join owner))) (by
            rintro p ⟨⟩
            exact hp)
        rw [finish_fst, finish_fst, finish_snd, finish_snd, herror]
        exact ⟨rfl, hagree⟩
      · exact ⟨rfl, h⟩
    · cases hdir

end Mockup.Store
