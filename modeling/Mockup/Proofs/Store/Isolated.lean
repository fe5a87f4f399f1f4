import Mockup.Proofs.Store.Reuse
import Mockup.Proofs.Store.View

/-! Owners are isolated from each other, through all calls on an empty root. As long as nothing was
published the way to the root may be missing; the first publication makes it, and since it may as
well have been there, that does not matter to the others. -/

namespace Mockup.Store

open Files Path Disk

variable {s : Store} {d d₀ : Disk} {owner spare time : String} {spec : Spec} {m : Manifest}
  {previous : Option Manifest} {b : Bundle}

def Grounded (s : Store) (d : Disk) : Prop :=
  d.Paved s.root ∨ ∀ owner k, d.entry? (s.place d owner k) = none

theorem EmptyRoot.grounded (h : s.EmptyRoot d) : s.Grounded d :=
  .inr fun owner k => h.empty (owner :: k) (List.cons_ne_nil _ _)

theorem loadManifest_of_none (howner : isOwner owner = true)
    (h : d.entry? (s.place d owner [manifestName]) = none) : s.loadManifest d owner = .ok none :=
  (Tells.of_none h).loadManifest_none howner rfl

theorem deleteOwner_of_none (howner : isOwner owner = true)
    (h : d.entry? (s.place d owner []) = none) : s.deleteOwner d owner = (.ok false, d) := by
  have hhas := has_join_of_none (p := s.root) (isName_of_isOwner howner) h
  simp [Store.deleteOwner, ownerDir_eq s howner, hhas]

/-- The first act of a publication makes the way to the root, so it may as well be there. -/
theorem runActs_paved (hm : s.Placed owner m) (failure : Fault → StoreError)
    (rest : List (Act StoreError)) :
    runActs (d.paved s.root) (.perform (.makeDirs m.path) failure :: rest) =
      runActs d (.perform (.makeDirs m.path) failure :: rest) := by
  have hmake := run_makeDirs_paved (p := s.root) (isName_of_isOwner hm.isOwner) hm.isSlug.isName d
  rw [← hm.path] at hmake
  simp only [runActs, Act.run, hmake]

theorem publish_of_none (howner : isOwner owner = true)
    (h : d.entry? (s.place d owner [manifestName]) = none) (spare time : String) (spec : Spec) :
    let m := s.manifestFor spare time owner spec
    s.publish d spare time owner spec = finish ⟨m.slug, m.publicUrl, m.path, false⟩
      (runActs d (s.replacing (s.root.join owner) none (Bundle.compile spare spec) m)) :=
  publish_of_filter howner (loadManifest_of_none howner h) rfl spare time

theorem Direct.entry?_paved (hdirect : s.Direct d) (owner : String) (k : Location) :
    Disk.entry? (d.paved s.root) (s.place d owner k) = d.entry? (s.place d owner k) :=
  Widens.entry?_eq (widens_paved d s.root) (hdirect.not_mem_stops owner k)

theorem Direct.publish_paved (hdirect : s.Direct d) (howner : isOwner owner = true)
    (hspare : Slug.IsSlug spare) (h : d.entry? (s.place d owner [manifestName]) = none)
    (time : String) (spec : Spec) :
    s.publish (d.paved s.root) spare time owner spec = s.publish d spare time owner spec := by
  have hpaved : Disk.entry? (d.paved s.root)
      (s.place (d.paved s.root) owner [manifestName]) = none := by
    rw [place_congr (widens_paved d s.root).home, hdirect.entry?_paved, h]
  rw [publish_of_none howner h, publish_of_none howner hpaved]
  exact congrArg _ (runActs_paved (placed_manifestFor howner hspare time spec) _ _)

theorem Grounded.runActs (hgrounded : s.Grounded d) (hdirect : s.Direct d) (hm : s.Placed owner m)
    (hprevious : ∀ old ∈ previous, s.Placed owner old) {as : List (Act StoreError)}
    (has : as <+: s.replacing (s.root.join owner) previous b m) :
    s.Grounded (Files.runActs d as).1 := by
  have hkeep {d : Disk} (hdirect : s.Direct d) (hpaved : d.Paved s.root) :
      (Files.runActs d as).1.Paved s.root :=
    hpaved.of_agree ((outside_of_runActs hm hprevious (fun a ha => has.subset ha) hdirect
      hpaved).mono fun l hl => hdirect.not_prefix hl owner [])
  rcases hgrounded with hpaved | hempty
  · exact .inl (hkeep hdirect hpaved)
  · rcases List.prefix_cons_iff.mp has with rfl | ⟨rest, rfl, -⟩
    · exact .inr hempty
    · rw [← runActs_paved hm]
      refine .inl (hkeep (hdirect.of_home (widens_paved d s.root).home) fun k => ?_)
      rw [paved_paved]

namespace Consistent

variable {l : String → Ledger} {c : Call} {calls : List Call} {f g : Op}

theorem grounded_call (h : s.Consistent d l) (hgrounded : s.Grounded d) (hc : c.Sound) :
    s.Grounded (c.run s d) := by
  by_cases howner : isOwner c.target = true
  · have htells := h.tells _ howner
    -- a publication performs its acts, or some of them, or none
    have hacts (spare time : String) (spec : Spec) (hspare : Slug.IsSlug spare)
        {as : List (Act StoreError)} (has : as <+: s.acts d spare time c.target spec) :
        s.Grounded (runActs d as).1 := by
      rcases s.acts_eq_nil_or d spare time c.target spec with hnil | ⟨previous, hload, heq⟩
      · rw [hnil, List.prefix_nil] at has
        rw [has]
        exact hgrounded
      · rw [heq] at has
        exact hgrounded.runActs h.direct (placed_manifestFor howner hspare time spec)
          (htells.placed_of_load howner hload) has
    cases c with
    | publish spare time owner spec =>
      rw [Call.run, publish_snd]
      exact hacts spare time spec hc List.prefix_rfl
    | interrupted n spare time owner spec =>
      exact hacts spare time spec hc ((List.take_prefix n _).trans (List.dropLast_prefix _))
    | deleteOwner owner =>
      rw [Call.target] at howner
      rw [Call.run]
      rcases deleteOwner_erases (s := s) howner d with hkept | ⟨hhome, hentries⟩
      · rw [hkept]
        exact hgrounded
      · rcases hgrounded with hpaved | hempty
        · refine .inl (hpaved.of_agree ⟨hhome, fun k hk => ?_⟩)
          rw [hentries, if_neg (h.direct.not_prefix hk owner [])]
        · refine .inr fun other k => ?_
          rw [place_congr hhome, hentries, hempty, ite_self]
  · rw [run_eq_self howner]
    exact hgrounded

theorem grounded_after (h : s.Consistent d l) (hgrounded : s.Grounded d)
    (hcalls : ∀ c ∈ calls, c.Sound) : s.Grounded (s.after d calls) := by
  induction calls generalizing d l with
  | nil => exact hgrounded
  | cons c calls ih =>
    rw [List.forall_mem_cons] at hcalls
    exact ih (h.call hcalls.1).1 (h.grounded_call hgrounded hcalls.1) hcalls.2

theorem settled (h : s.Consistent d l) (hpaved : d.Paved s.root) (howner : isOwner owner = true) :
    s.Settled owner d where
  direct := h.direct
  paved := hpaved
  placed := fun m hload => (h.tells owner howner).placed_of_load howner hload m rfl

theorem entry?_run (h : s.Consistent d l) (hg : g.call.Sound) (hne : owner ≠ g.target)
    (k : Location) : Disk.entry? (g.run s d) (s.place (g.run s d) owner k) =
      d.entry? (s.place d owner k) := by
  have hapart := (h.call hg).2 owner (by rw [Op.target_call]; exact hne.symm)
  rw [Op.run_call] at hapart
  rw [place_congr hapart.home, hapart.entries]

theorem commute_deleteOwner (h : s.Consistent d l) (howner : isOwner owner = true)
    (hnone : d.entry? (s.place d owner []) = none) (hg : g.call.Sound) (hne : owner ≠ g.target) :
    Op.Commute s d (.deleteOwner owner) g := by
  have hdelete := deleteOwner_of_none howner hnone
  have hdelete' : s.deleteOwner (g.run s d) owner = (.ok false, g.run s d) := by
    refine deleteOwner_of_none howner ?_
    rw [h.entry?_run hg hne, hnone]
  refine ⟨?_, ?_, ?_⟩
  · rw [Op.answer, Op.answer, hdelete, hdelete']
  · rw [Op.run, hdelete]
  · rw [Op.run, hdelete, Op.run, hdelete']
    exact .refl _ _

theorem commute_publish (h : s.Consistent d l)
    (hempty : ∀ owner k, d.entry? (s.place d owner k) = none) {spare' time' owner' : String}
    {spec' : Spec} (howner : isOwner owner = true) (howner' : isOwner owner' = true)
    (hspare : Slug.IsSlug spare) (hspare' : Slug.IsSlug spare') (hne : owner ≠ owner') :
    Op.Commute s d (.publish spare time owner spec) (.publish spare' time' owner' spec') := by
  have hhome := (widens_paved d s.root).home
  have hsettled {owner : String} (howner : isOwner owner = true) :
      s.Settled owner (d.paved s.root) := by
    refine ⟨h.direct.of_home hhome, fun k => by rw [paved_paved], fun m hload => ?_⟩
    rw [loadManifest_of_none howner] at hload
    · cases hload
    · rw [place_congr hhome, h.direct.entry?_paved, hempty]
  -- both make the way to the root, and they commute where it is made
  obtain ⟨hfirst, hsecond, hfiles⟩ := Op.commute_of_settled
    (f := .publish spare time owner spec) (g := .publish spare' time' owner' spec')
    (hsettled howner) (hsettled howner') howner howner' hspare hspare' hne
  have hpublish := h.direct.publish_paved howner hspare (hempty _ _) time spec
  have hpublish' := h.direct.publish_paved howner' hspare' (hempty _ _) time' spec'
  simp only [Op.answer, Op.run, hpublish, hpublish'] at hfirst hsecond hfiles
  exact ⟨hfirst, hsecond, hfiles⟩

theorem commute (h : s.Consistent d l) (hgrounded : s.Grounded d) (hf : f.call.Sound)
    (hg : g.call.Sound) (hne : f.target ≠ g.target) : Op.Commute s d f g := by
  by_cases hfOwner : isOwner f.target = true
  · by_cases hgOwner : isOwner g.target = true
    · rcases hgrounded with hpaved | hempty
      · exact Op.commute_of_settled (h.settled hpaved hfOwner) (h.settled hpaved hgOwner) hfOwner
          hgOwner hf hg hne
      · cases f with
        | deleteOwner owner => exact h.commute_deleteOwner hfOwner (hempty _ _) hg hne
        | publish spare time owner spec =>
          cases g with
          | deleteOwner owner' =>
            exact (h.commute_deleteOwner hgOwner (hempty _ _) hf hne.symm).symm
          | publish spare' time' owner' spec' =>
            exact h.commute_publish hempty hfOwner hgOwner hf hg hne
    · exact (Op.commute_of_not_isOwner hgOwner f).symm
  · exact Op.commute_of_not_isOwner hfOwner g

end Consistent

/-- After any calls on an empty root, of which some may have failed half-way, publishing for an
owner changes nothing but the manifest of the owner and directories of the owner named by slugs,
and deleting removes the directory of the owner as a whole or changes nothing. An owner that is not
valid is refused. The operations of two owners commute. -/
theorem owners_isolated {calls : List Call} (hroot : s.EmptyRoot d₀)
    (hcalls : ∀ c ∈ calls, c.Sound) :
    let d := s.after d₀ calls
    (∀ spare time owner spec, isOwner owner = true → Slug.IsSlug spare →
      s.Confined owner d (s.publish d spare time owner spec).2) ∧
    (∀ owner, isOwner owner = true →
      (s.deleteOwner d owner).2 = d ∨ s.Erased owner d (s.deleteOwner d owner).2) ∧
    (∀ f : Op, ¬ isOwner f.target = true →
      f.answer s d = .error (.invalidOwner f.target) ∧ f.run s d = d) ∧
    ∀ f g : Op, f.call.Sound → g.call.Sound → f.target ≠ g.target → Op.Commute s d f g := by
  have hconsistent := (hroot.consistent.after hcalls).1
  have hgrounded := hroot.consistent.grounded_after hroot.grounded hcalls
  generalize s.after d₀ calls = d at hconsistent hgrounded
  refine ⟨fun spare time owner spec howner hspare => ?_, fun owner howner => ?_, fun f hf => ?_,
    fun f g hf hg hne => ?_⟩
  · exact (hconsistent.tells owner howner).publish_confined howner hspare time spec
  · exact deleteOwner_erases howner d
  · exact Op.answer_of_not_isOwner hf s d
  · exact hconsistent.commute hgrounded hf hg hne

theorem owners_isolated_demo :
    let d := demoStore.after {} [demoCall]
    demoStore.Confined "bob" d (demoStore.publish d "0a1b2c3d" "today" "bob" demoSpec).2 ∧
      Op.Commute demoStore d (.deleteOwner "ann") (.publish "0a1b2c3d" "today" "bob" demoSpec) := by
  have hsound : ∀ c ∈ [demoCall], c.Sound := by
    intro c hc
    rw [List.mem_singleton.mp hc]
    exact isSlug_demo
  obtain ⟨hconfined, -, -, hcommute⟩ := owners_isolated emptyRoot_demo hsound
  exact ⟨hconfined _ _ _ _ (by decide) isSlug_demo, hcommute _ _ trivial isSlug_demo (by decide)⟩

end Mockup.Store
