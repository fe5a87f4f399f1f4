import Mathlib.Data.List.Induction
import Mockup.Proofs.Spec.Record
import Mockup.Proofs.Store.Publish

/-! Runs of the store. Calls for any owners follow each other, and what the store keeps true is
carried from an empty root through all of them. -/

namespace Mockup.Store

open Files Path Disk

variable {s : Store} {d d₀ : Disk} {owner spare time : String} {spec : Spec}
  {prior : String → Option Manifest}

/-- A call that changes the store, with all that it is given. -/
inductive Op where
  | publish (spare time owner : String) (spec : Spec)
  | deleteOwner (owner : String)

namespace Op

def target : Op → String
  | publish _ _ owner _ => owner
  | deleteOwner owner => owner

def run (s : Store) (d : Disk) : Op → Disk
  | publish spare time owner spec => (s.publish d spare time owner spec).2
  | deleteOwner owner => (s.deleteOwner d owner).2

def Works (s : Store) (d : Disk) : Op → Prop
  | publish spare time owner spec =>
    ∀ e, (s.publish d spare time owner spec).1 = .error e → e.fault? = none
  | deleteOwner owner => ∀ e, (s.deleteOwner d owner).1 = .error e → e.fault? = none

/-- What is given for publishing can be read back, and the spare slug is a slug. -/
def Sound (s : Store) : Op → Prop
  | publish spare time owner spec =>
    Slug.IsSlug spare ∧ (s.manifestFor spare time owner spec).Legible
  | deleteOwner _ => True

def note (s : Store) (prior : String → Option Manifest) : Op → String → Option Manifest
  | publish spare time owner spec =>
    if isOwner owner then
      Function.update prior owner (some (s.republished (prior owner) spare time owner spec))
    else prior
  | deleteOwner owner => if isOwner owner then Function.update prior owner none else prior

def noteSpec (owner : String) (last : Option Spec) : Op → Option Spec
  | publish _ _ other spec => if other = owner then some spec else last
  | deleteOwner other => if other = owner then none else last

theorem note_of_ne (op : Op) (h : op.target ≠ owner) : op.note s prior owner = prior owner := by
  cases op with
  | publish spare time other spec =>
    simp only [note]
    split
    · exact Function.update_of_ne (Ne.symm h) ..
    · rfl
  | deleteOwner other =>
    simp only [note]
    split
    · exact Function.update_of_ne (Ne.symm h) ..
    · rfl

theorem noteSpec_of_ne (op : Op) (h : op.target ≠ owner) (last : Option Spec) :
    op.noteSpec owner last = last := by
  cases op with
  | publish spare time other spec => exact if_neg h
  | deleteOwner other => exact if_neg h

end Op

/-- The disks that calls lead to, as long as no step on the disk fails. -/
inductive Run (s : Store) (d₀ : Disk) : List Op → Disk → Prop where
  | start : Run s d₀ [] d₀
  | call {ops : List Op} {d : Disk} (op : Op) (before : Run s d₀ ops d) (sound : op.Sound s)
      (works : op.Works s d) : Run s d₀ (ops ++ [op]) (op.run s d)

def published (s : Store) (ops : List Op) : String → Option Manifest :=
  ops.foldl (Op.note s) fun _ => none

def lastPublished (owner : String) (ops : List Op) : Option Spec :=
  ops.foldl (Op.noteSpec owner) none

/-- There is nothing below the root. A root that is yet to be made is not reached through what will
be below it, as `out/x/..` would be. -/
structure EmptyRoot (s : Store) (d : Disk) : Prop where
  empty : ∀ k ≠ [], d.entry? (d.site s.root ++ k) = none
  way : d.find? s.root = some .dir ∨ s.Direct d

theorem direct_of_not_parent (h : ".." ∉ s.root.stem) (d : Disk) : s.Direct d := by
  intro k hk
  have hlength := (prefix_site_of_mem_stops h hk).length_le
  rw [List.length_append] at hlength
  exact List.eq_nil_of_length_eq_zero (by omega)

theorem EmptyRoot.direct (h : s.EmptyRoot d) : s.Direct d := by
  rcases h.way with hdir | hdirect
  · intro k hk
    by_contra hne
    -- a place on the way is a directory, and there is none below the root
    have hentry := dir_of_mem_stops hdir hk
    rw [h.empty k hne] at hentry
    cases hentry
  · exact hdirect

theorem EmptyRoot.holds (h : s.EmptyRoot d) : s.Holds d fun _ => none :=
  ⟨nofun, nofun, fun owner _ k => h.empty (owner :: k) (List.cons_ne_nil _ _)⟩

theorem ownerDir_eq_error (s : Store) (h : ¬ isOwner owner) :
    s.ownerDir owner = .error (.invalidOwner owner) := if_neg h

/-- The step of a run, whether the call is refused or not. -/
theorem Holds.run (h : s.Holds d prior) (hdirect : s.Direct d) {op : Op} (hsound : op.Sound s)
    (hworks : op.Works s d) : s.Direct (op.run s d) ∧ s.Holds (op.run s d) (op.note s prior) := by
  cases op with
  | publish spare time owner spec =>
    by_cases howner : isOwner owner
    · obtain ⟨htouches, hholds⟩ := h.publish hdirect howner hsound.1 hsound.2 hworks
      rw [Op.note, if_pos howner]
      exact ⟨hdirect.of_home htouches.home, hholds⟩
    · rw [Op.note, if_neg howner, Op.run, Store.publish, ownerDir_eq_error s howner]
      exact ⟨hdirect, h⟩
  | deleteOwner owner =>
    by_cases howner : isOwner owner
    · obtain ⟨htouches, hholds⟩ := h.deleteOwner hdirect howner
      rw [Op.note, if_pos howner]
      exact ⟨hdirect.of_home htouches.home, hholds⟩
    · rw [Op.note, if_neg howner, Op.run, Store.deleteOwner, ownerDir_eq_error s howner]
      exact ⟨hdirect, h⟩

theorem Run.holds {ops : List Op} (hrun : s.Run d₀ ops d) (hroot : s.EmptyRoot d₀) :
    s.Direct d ∧ s.Holds d (s.published ops) := by
  induction hrun with
  | start => exact ⟨hroot.direct, hroot.holds⟩
  | call op before sound works ih =>
    rw [published, List.foldl_concat]
    exact ih.2.run ih.1 sound works

theorem Run.publish {ops : List Op} {d' : Disk} {m : Manifest} (h : s.Run d₀ ops d)
    (hroot : s.EmptyRoot d₀) (howner : isOwner owner = true)
    (hsound : (Op.publish spare time owner spec).Sound s)
    (hm : s.manifestFor spare time owner spec = m)
    (hnew : ((s.published ops owner).filter fun m => m.spec.same spec) = none)
    (hacts : runActs d (s.replacing (s.root.join owner) (s.published ops owner)
      (Bundle.compile m.slug m.spec) m) = (d', none)) :
    s.Run d₀ (ops ++ [.publish spare time owner spec]) d' := by
  have hpublish := (h.holds hroot).2.publish_of_new howner hm hnew
  rw [hacts] at hpublish
  have hworks : (Op.publish spare time owner spec).Works s d := by
    intro e he
    rw [hpublish] at he
    cases he
  have hrun : (Op.publish spare time owner spec).run s d = d' := by
    rw [Op.run, hpublish]
    rfl
  rw [← hrun]
  exact .call _ h hsound hworks

theorem same_republished (s : Store) (previous : Option Manifest) (spare time owner : String)
    (spec : Spec) : (s.republished previous spare time owner spec).spec.same spec = true := by
  unfold republished
  cases hreuse : previous.filter fun m => m.spec.same spec with
  | none =>
    rw [Option.getD_none, spec_manifestFor, spec.same_refl]
  | some m => exact (Option.filter_eq_some_iff.mp hreuse).2

theorem rel_lastPublished (s : Store) (howner : isOwner owner = true) (ops : List Op) :
    Option.Rel (fun spec m => m.spec.same spec = true) (lastPublished owner ops)
      (s.published ops owner) := by
  -- from the end, where the last call is
  induction ops using List.reverseRecOn with
  | nil => exact .none
  | append_singleton ops op ih =>
    rw [lastPublished, published, List.foldl_concat, List.foldl_concat]
    by_cases heq : op.target = owner
    · cases op with
      | publish spare time other spec =>
        obtain rfl : other = owner := heq
        rw [Op.noteSpec, if_pos rfl, Op.note, if_pos howner, Function.update_self]
        exact .some (s.same_republished ..)
      | deleteOwner other =>
        obtain rfl : other = owner := heq
        rw [Op.noteSpec, if_pos rfl, Op.note, if_pos howner, Function.update_self]
        exact .none
    · rw [op.noteSpec_of_ne heq, op.note_of_ne heq]
      exact ih

end Mockup.Store
