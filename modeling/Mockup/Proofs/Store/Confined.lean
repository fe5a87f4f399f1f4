import Mockup.Proofs.Store.Ledger
import Mockup.Proofs.Store.Visited

/-! What the calls for an owner may change. Publishing keeps to the manifest of the owner and to
directories named by slugs, and deleting removes the directory of the owner as a whole. -/

namespace Mockup.Store

open Files Path Disk

variable {s : Store} {d d' d₁ : Disk} {owner slug spare time : String} {spec : Spec} {m : Manifest}
  {previous : Option Manifest} {b : Bundle} {a : Act StoreError} {l : Location}

/-- The manifest of an owner, and what is at and below a directory named by a slug. -/
def Held (s : Store) (d : Disk) (owner : String) (l : Location) : Prop :=
  l = s.place d owner [manifestName] ∨ ∃ slug k, Slug.IsSlug slug ∧ l = s.place d owner (slug :: k)

/-- From one disk to the other, nothing changed but what the owner may hold and directories on the
way to it that were not there. -/
structure Confined (s : Store) (owner : String) (d d' : Disk) : Prop where
  home : d'.home = d.home
  others : ∀ l, ¬ s.Held d owner l → d'.entry? l = d.entry? l ∨
    (l ∈ d.stops s.root ∨ l = s.place d owner []) ∧ d.entry? l = none ∧ d'.entry? l = some .dir

/-- From one disk to the other, the directory of the owner was removed as a whole. -/
structure Erased (s : Store) (owner : String) (d d' : Disk) : Prop where
  home : d'.home = d.home
  entries : ∀ l, d'.entry? l = if s.place d owner [] <+: l then none else d.entry? l

theorem held_congr (h : d'.home = d.home) : s.Held d' owner l ↔ s.Held d owner l := by
  simp only [Held, place_congr h]

namespace Confined

theorem refl (s : Store) (owner : String) (d : Disk) : s.Confined owner d d :=
  ⟨rfl, fun _ _ => .inl rfl⟩

theorem trans (h : s.Confined owner d d₁) (h' : s.Confined owner d₁ d') :
    s.Confined owner d d' where
  home := h'.home.trans h.home
  others := by
    intro l hl
    have hlater := h'.others l (fun hheld => hl ((held_congr h.home).mp hheld))
    rw [stops_congr h.home, place_congr h.home] at hlater
    rcases h.others l hl with hkept | ⟨hway, hnone, hdir⟩
    · rw [hkept] at hlater
      exact hlater
    · rcases hlater with hkept | ⟨-, hnone', -⟩
      · exact .inr ⟨hway, hnone, hkept.trans hdir⟩
      · rw [hdir] at hnone'
        cases hnone'

end Confined

theorem held_slug (hslug : Slug.IsSlug slug) (k : Location) :
    s.Held d owner (s.place d owner (slug :: k)) := .inr ⟨slug, k, hslug, rfl⟩

theorem confined_set (hl : s.Held d owner l) (x : Entry) : s.Confined owner d (d.set l x) := by
  have hne : l ≠ [] := by
    rcases hl with rfl | ⟨slug, k, -, rfl⟩ <;> simp [place]
  refine ⟨rfl, fun k hk => .inl ?_⟩
  have hother : k ≠ l := by
    rintro rfl
    exact hk hl
  rw [entry?_set hne, if_neg hother]

theorem Effect.confined (h : Effect s owner m d d') (hm : s.Placed owner m) :
    s.Confined owner d d' := by
  cases h with
  | same => exact .refl s owner d
  | widened h =>
    refine ⟨h.home, fun l hl => (h.entries l).imp_right fun hadd => ⟨?_, hadd.2⟩⟩
    obtain ⟨hmem, -⟩ := hadd
    rw [hm.stops, List.mem_append, List.mem_pair] at hmem
    rcases hmem with hstop | rfl | rfl
    · exact .inl hstop
    · exact .inr rfl
    · exact absurd (held_slug hm.isSlug []) hl
  | wrote name text => exact confined_set (held_slug hm.isSlug [name]) _
  | @cleared slug hslug hne =>
    refine ⟨rfl, fun l hl => .inl ?_⟩
    have hbelow : ¬ s.place d owner [slug] <+: l := by
      rintro ⟨k, rfl⟩
      rw [place_append] at hl
      exact hl (held_slug hslug k)
    rw [entry?_removeTree (by simp [place]), if_neg hbelow]

theorem run_writing_manifest (howner : isOwner owner = true) (text : String) (d : Disk) :
    ((writing ((s.root.join owner).join manifestName) text).run d).1 = d ∨
      ∃ x, ((writing ((s.root.join owner).join manifestName) text).run d).1 =
        d.set (s.place d owner [manifestName]) x := by
  rw [writing, perform_run_fst, Step.run]
  rcases put_join_cases (d := d) (p := s.root.join owner) isName_manifestName fun _ => text with
    ⟨text', hput⟩ | ⟨fault, hput⟩
  · rw [hput, site_owner howner]
    exact .inr ⟨_, rfl⟩
  · rw [hput]
    exact .inl rfl

theorem confined_of_mem (hm : s.Placed owner m) (hprevious : ∀ old ∈ previous, s.Placed owner old)
    (ha : a ∈ s.replacing (s.root.join owner) previous b m) (d : Disk) :
    s.Confined owner d (a.run d).1 := by
  rw [replacing_eq, List.mem_append, List.mem_singleton] at ha
  rcases ha with ha | rfl
  · exact (effect_of_mem hm hprevious ha d).confined hm
  · rcases run_writing_manifest (s := s) hm.isOwner m.indented d with hkept | ⟨x, hset⟩
    · rw [hkept]
      exact .refl s owner d
    · rw [hset]
      exact confined_set (.inl rfl) x

namespace Tells

variable {l : Ledger}

/-- Whether or not it goes through, publishing changes nothing but what the owner may hold. -/
theorem publish_confined (h : s.Tells owner d l) (howner : isOwner owner = true)
    (hspare : Slug.IsSlug spare) (time : String) (spec : Spec) :
    s.Confined owner d (s.publish d spare time owner spec).2 := by
  rw [publish_snd]
  rcases s.acts_eq_nil_or d spare time owner spec with hnil | ⟨previous, hload, hacts⟩
  · rw [hnil]
    exact .refl s owner d
  · rw [hacts]
    refine runActs_induction (R := s.Confined owner) (.refl s owner)
      (fun d d₁ d' h h' => h.trans h') (fun a ha d => ?_) d
    exact confined_of_mem (placed_manifestFor howner hspare time spec)
      (h.placed_of_load howner hload) ha d

end Tells

theorem deleteOwner_erases (howner : isOwner owner = true) (d : Disk) :
    (s.deleteOwner d owner).2 = d ∨ s.Erased owner d (s.deleteOwner d owner).2 := by
  rcases deleteOwner_cases (s := s) (d := d) howner with hdelete | hdelete | ⟨e, hdelete⟩
  · rw [hdelete]
    exact .inr ⟨rfl, entry?_removeTree (by simp [place]) d⟩
  · exact .inl (by rw [hdelete])
  · exact .inl (by rw [hdelete])

end Mockup.Store
