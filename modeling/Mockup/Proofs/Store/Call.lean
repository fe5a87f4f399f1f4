import Mockup.Proofs.Store.Publish

/-! Calls for an owner, some of which fail half-way, and the ledger of what is known to have been
written for the owner. -/

namespace Mockup.Store

open Files Path Disk

variable {s : Store} {d d' : Disk} {owner spare time : String} {spec : Spec}
  {previous : Option Manifest}

def acts (s : Store) (d : Disk) (spare time owner : String) (spec : Spec) :
    List (Act StoreError) :=
  match s.loadManifest d owner with
  | .error _ => []
  | .ok previous =>
    if (previous.filter (isCurrent d spec)).isSome then []
    else s.replacing (s.root.join owner) previous (Bundle.compile spare spec)
      (s.manifestFor spare time owner spec)

def interrupted (s : Store) (d : Disk) (n : Nat) (spare time owner : String) (spec : Spec) : Disk :=
  (runActs d ((s.acts d spare time owner spec).dropLast.take n)).1

theorem publish_cases (howner : isOwner owner = true)
    (hload : s.loadManifest d owner = .ok previous) (spare time : String) (spec : Spec) :
    (∃ m ∈ previous, isCurrent d spec m = true ∧ s.acts d spare time owner spec = [] ∧
      s.publish d spare time owner spec = (.ok ⟨m.slug, m.publicUrl, m.path, true⟩, d)) ∨
    (previous.filter (isCurrent d spec) = none ∧
      s.acts d spare time owner spec = s.replacing (s.root.join owner) previous
        (Bundle.compile spare spec) (s.manifestFor spare time owner spec) ∧
      s.publish d spare time owner spec =
        finish ⟨(s.manifestFor spare time owner spec).slug,
          (s.manifestFor spare time owner spec).publicUrl,
          (s.manifestFor spare time owner spec).path, false⟩
          (runActs d (s.acts d spare time owner spec))) := by
  have hmanifest : manifestIn d (s.root.join owner) = .ok previous := by
    rw [← hload, loadManifest, ownerDir_eq s howner]
  cases hcurrent : previous.filter (isCurrent d spec) with
  | some m =>
    obtain ⟨hm, hcurrent'⟩ := Option.filter_eq_some_iff.mp hcurrent
    refine .inl ⟨m, hm, hcurrent', ?_, ?_⟩
    · simp [acts, hload, hcurrent]
    · simp only [publish, ownerDir_eq s howner, hmanifest, hcurrent]
  | none =>
    have hacts : s.acts d spare time owner spec = s.replacing (s.root.join owner) previous
        (Bundle.compile spare spec) (s.manifestFor spare time owner spec) := by
      simp [acts, hload, hcurrent]
    refine .inr ⟨rfl, hacts, ?_⟩
    rw [hacts]
    simp only [publish, ownerDir_eq s howner, hmanifest, hcurrent, manifestFor]

theorem publish_of_error {e : StoreError} (hload : s.loadManifest d owner = .error e)
    (spare time : String) (spec : Spec) :
    s.acts d spare time owner spec = [] ∧ s.publish d spare time owner spec = (.error e, d) := by
  have hacts : s.acts d spare time owner spec = [] := by
    unfold acts
    rw [hload]
  refine ⟨hacts, ?_⟩
  unfold loadManifest at hload
  unfold publish
  split at hload
  · cases hload
    rfl
  · simp only [hload]

theorem loadManifest_of_not_isOwner (howner : ¬ isOwner owner = true) (d : Disk) :
    s.loadManifest d owner = .error (.invalidOwner owner) := by
  rw [loadManifest, ownerDir, if_neg howner]

theorem isOwner_of_load (h : s.loadManifest d owner = .ok previous) : isOwner owner = true := by
  by_contra howner
  rw [loadManifest_of_not_isOwner howner] at h
  cases h

theorem load_of_publish {b : PublishedBundle}
    (h : s.publish d spare time owner spec = (.ok b, d')) :
    isOwner owner = true ∧ ∃ previous, s.loadManifest d owner = .ok previous := by
  cases hload : s.loadManifest d owner with
  | error e =>
    rw [(publish_of_error hload spare time spec).2] at h
    cases h
  | ok previous => exact ⟨isOwner_of_load hload, previous, rfl⟩

theorem deleteOwner_cases (howner : isOwner owner = true) :
    s.deleteOwner d owner = (.ok true, d.removeTree (s.place d owner [])) ∨
      s.deleteOwner d owner = (.ok false, d) ∨ ∃ e, s.deleteOwner d owner = (.error e, d) := by
  unfold Store.deleteOwner
  rw [ownerDir_eq s howner]
  dsimp only
  split
  · rcases removeDir_join_cases (d := d) (p := s.root) (isName_of_isOwner howner) with
      hremoved | ⟨f, hkept⟩
    · simp only [Act.run, Step.run, hremoved, finish]
      exact .inl rfl
    · simp only [Act.run, Step.run, hkept, finish]
      exact .inr (.inr ⟨_, rfl⟩)
  · exact .inr (.inl rfl)

/-- A call for an owner. A publication may be cut short by an act that fails. -/
inductive Call where
  | publish (spare time owner : String) (spec : Spec)
  | interrupted (n : Nat) (spare time owner : String) (spec : Spec)
  | deleteOwner (owner : String)

def isWriting : Act StoreError → Bool
  | .perform (.write _ _) _ => true
  | _ => false

/-- Whether acts write a file before one of them fails. -/
def writesFile (d : Disk) : List (Act StoreError) → Bool
  | [] => false
  | a :: rest =>
    match a.run d with
    | (d', none) => isWriting a || writesFile d' rest
    | (_, some _) => false

/-- The manifest that was last written for an owner, and whether no publication with its slug wrote
a file and failed since. -/
structure Ledger where
  manifest : Option Manifest := none
  intact : Bool := true

/-- The ledger after a publication with a slug failed, with or without a file written before. -/
def Ledger.spoiled (l : Ledger) (wrote : Bool) (slug : String) : Ledger :=
  { l with intact := l.intact && (!wrote || l.manifest.all fun m => m.slug ≠ slug) }

namespace Call

def target : Call → String
  | publish _ _ owner _ => owner
  | interrupted _ _ _ owner _ => owner
  | deleteOwner owner => owner

def spec? : Call → Option Spec
  | publish _ _ _ spec => some spec
  | interrupted _ _ _ _ spec => some spec
  | deleteOwner _ => none

def Sound : Call → Prop
  | publish spare _ _ _ => Slug.IsSlug spare
  | interrupted _ spare _ _ _ => Slug.IsSlug spare
  | deleteOwner _ => True

def run (s : Store) (d : Disk) : Call → Disk
  | publish spare time owner spec => (s.publish d spare time owner spec).2
  | interrupted n spare time owner spec => s.interrupted d n spare time owner spec
  | deleteOwner owner => (s.deleteOwner d owner).2

def note (s : Store) (d : Disk) (l : Ledger) : Call → Ledger
  | publish spare time owner spec =>
    match (s.publish d spare time owner spec).1 with
    | .ok b => if b.reused then l else ⟨some (s.manifestFor spare time owner spec), true⟩
    | .error _ =>
      l.spoiled (writesFile d (s.acts d spare time owner spec).dropLast)
        (Bundle.compile spare spec).slug
  | interrupted n spare time owner spec =>
    l.spoiled (writesFile d ((s.acts d spare time owner spec).dropLast.take n))
      (Bundle.compile spare spec).slug
  | deleteOwner owner =>
    match (s.deleteOwner d owner).1 with
    | .ok true => {}
    | _ => l

end Call

def after (s : Store) (d : Disk) (calls : List Call) : Disk := calls.foldl (Call.run s) d

def ledger (s : Store) (owner : String) : Disk → Ledger → List Call → Ledger
  | _, l, [] => l
  | d, l, c :: calls =>
    ledger s owner (c.run s d) (if c.target = owner then c.note s d l else l) calls

section Specs

variable {Q : Spec → Prop} {l : Ledger} {c : Call} {calls : List Call}

theorem Call.forall_note (hl : ∀ m ∈ l.manifest, Q m.spec) (hc : ∀ spec ∈ c.spec?, Q spec) :
    ∀ m ∈ (c.note s d l).manifest, Q m.spec := by
  cases c with
  | publish spare time owner spec =>
    rw [note]
    split
    · split
      · exact hl
      · intro m hm
        rw [← Option.some.inj hm, spec_manifestFor]
        exact hc spec rfl
    · exact hl
  | interrupted n spare time owner spec => exact hl
  | deleteOwner owner =>
    rw [note]
    split
    · nofun
    · exact hl

theorem forall_ledger (hl : ∀ m ∈ l.manifest, Q m.spec)
    (hcalls : ∀ c ∈ calls, c.target = owner → ∀ spec ∈ c.spec?, Q spec) :
    ∀ m ∈ (s.ledger owner d l calls).manifest, Q m.spec := by
  induction calls generalizing d l with
  | nil => exact hl
  | cons c calls ih =>
    rw [List.forall_mem_cons] at hcalls
    rw [ledger]
    refine ih ?_ hcalls.2
    split
    · next htarget => exact Call.forall_note hl (hcalls.1 htarget)
    · exact hl

end Specs

end Mockup.Store
