import Mockup.Proofs.Spec.Decoded
import Mockup.Proofs.Store.Reuse

/-! Publishing again. What was published is found again, whatever happens to other owners in
between, as long as its manifest can be read; a specification that is one level too deep for that
can be published once and then stands in the way of all that its owner publishes. -/

namespace Mockup.Store

open Files Path Disk

variable {s : Store} {d d' d₀ : Disk} {owner spare time : String} {spec : Spec} {l : Ledger}
  {m : Manifest} {b : PublishedBundle} {previous : Option Manifest}

theorem Tells.exists_publish (h : s.Tells owner d l) (howner : isOwner owner = true)
    (hspare : Slug.IsSlug spare) (hload : s.loadManifest d owner = .ok previous)
    (hworks : ∀ e, (s.publish d spare time owner spec).1 = .error e → e.fault? = none) :
    ∃ b d', s.publish d spare time owner spec = (.ok b, d') := by
  have hprevious := h.placed_of_load howner hload
  rcases publish_cases howner hload spare time spec with
    ⟨m, -, -, -, hpublish⟩ | ⟨-, hacts, hpublish⟩
  · exact ⟨_, _, hpublish⟩
  · have hm := placed_manifestFor (s := s) howner hspare time spec
    rw [hpublish] at hworks
    rcases hrun : runActs d (s.acts d spare time owner spec) with ⟨d', _ | e⟩
    · rw [hrun] at hpublish
      exact ⟨_, _, hpublish⟩
    · -- an act that fails has a fault of the disk to tell of
      rw [hrun] at hworks
      rw [hacts] at hrun
      obtain ⟨f, hf⟩ := fault_of_replacing hm hprevious hrun
      rw [hworks e rfl] at hf
      cases hf

/-- A bundle that was put in place stands as long as its manifest can be read back. -/
theorem Installed.stands {bundle : Bundle} (h : s.Installed owner bundle m d)
    (hm : s.Placed owner m) (hplain : m.spec.Plain) (hlevels : m.spec.levels ≤ 126) :
    s.Stands owner d m.spec m where
  placed := hm
  noted := ⟨m.indented, h.noted hm, Manifest.parse_indented hplain hlevels⟩
  isOpen := h.isOpen
  markup := by
    have hmarkup := h.files _ (List.mem_cons_self (l := [_, _]))
    rw [hmarkup]
    exact Option.some_ne_none _
  same := m.spec.same_refl

theorem Noted.publish_of_error {text why : String} (h : s.Noted owner d text)
    (howner : isOwner owner = true) (hparse : Manifest.parse text = .error why)
    (spare time : String) (spec : Spec) :
    s.publish d spare time owner spec =
      (.error (.cannotParse ((s.root.join owner).join manifestName) why), d) := by
  have hload := h.load howner
  rw [hparse] at hload
  exact (Store.publish_of_error hload spare time spec).2

/-- The manifest has one more level than the specification in it. -/
theorem publish_of_deep {bundle : Bundle} (h : s.Installed owner bundle m d)
    (hm : s.Placed owner m) (hplain : m.spec.Plain) (hlevels : ¬ m.spec.levels ≤ 126)
    (hapart : s.Apart owner d d') (spare time : String) (spec : Spec) :
    ∃ why, s.publish d' spare time owner spec =
      (.error (.cannotParse ((s.root.join owner).join manifestName) why), d') := by
  obtain ⟨why, hparse⟩ := Manifest.parse_indented_of_deep hplain hlevels
  have hnoted := (h.noted hm).of_apart hm.isOwner hapart
  exact ⟨why, hnoted.publish_of_error hm.isOwner hparse spare time spec⟩

theorem Tells.exists_load (h : s.Tells owner d l) (howner : isOwner owner = true)
    (hreadable : ∀ m ∈ l.manifest, m.Readable) :
    ∃ previous, s.loadManifest d owner = .ok previous := by
  cases hm : l.manifest with
  | none => exact ⟨none, h.loadManifest_none howner hm⟩
  | some m =>
    obtain ⟨m', hparse⟩ := hreadable m hm
    refine ⟨some m', ?_⟩
    rw [(h.noted hm).load howner, hparse]
    rfl

/-- The bundle of a publication that goes through is found for its specification, unless that is
too deep for the manifest that was written with it. -/
theorem Tells.found_again (h : s.Tells owner d l) (hdirect : s.Direct d)
    (hspare : Slug.IsSlug spare) (hload : s.loadManifest d owner = .ok previous)
    (hpublish : s.publish d spare time owner spec = (.ok b, d')) (hplain : spec.Plain)
    {d₁ : Disk} (hapart : s.Apart owner d' d₁) (spare' time' : String) :
    (spec.levels ≤ 126 ∨ b.reused = true →
      s.publish d₁ spare' time' owner spec = (.ok { b with reused := true }, d₁)) ∧
    (¬ spec.levels ≤ 126 → b.reused = false →
      ∃ why, s.publish d₁ spare' time' owner spec =
        (.error (.cannotParse ((s.root.join owner).join manifestName) why), d₁)) := by
  rcases h.stands_or_installed hdirect hspare hload hpublish with
    ⟨m, -, hstands, rfl, rfl⟩ | ⟨m, rfl, hplaced, hinstalled, rfl⟩
  · exact ⟨fun _ => (hstands.of_apart hapart).publish spare' time', fun _ => nofun⟩
  · refine ⟨fun hlevels => ?_, fun hdeep _ => ?_⟩
    · have hlevels : m.spec.levels ≤ 126 := hlevels.resolve_right Bool.false_ne_true
      exact ((hinstalled.stands hplaced hplain hlevels).of_apart hapart).publish spare' time'
    · exact publish_of_deep hinstalled hplaced hplain hdeep hapart spare' time' m.spec

theorem readable_of_calls {calls : List Call}
    (hplain : ∀ c ∈ calls, c.target = owner → ∀ t ∈ c.spec?, t.Plain ∧ t.levels ≤ 126) :
    ∀ m ∈ (s.ledger owner d₀ {} calls).manifest, m.Readable := by
  have hstored : ∀ m ∈ (s.ledger owner d₀ {} calls).manifest,
      m.spec.Plain ∧ m.spec.levels ≤ 126 := forall_ledger nofun hplain
  intro m hm
  obtain ⟨hspec, hlevels⟩ := hstored m hm
  exact (Manifest.readable_iff hspec).mpr hlevels

/-- After any calls on an empty root, of which some may have failed half-way, a valid owner whose
manifest can be read publishes a specification, unless a step on the disk fails. Whatever other
owners do afterwards, publishing it again finds the same bundle and changes nothing, provided that
the specification has at most 126 levels or was found already; if it was written and has more then
the manifest cannot be read any more, and publishing fails. A manifest without doubles that cannot
be read in the first place is one that was too deep. -/
theorem publish_again {calls : List Call} (hroot : s.EmptyRoot d₀) (hcalls : ∀ c ∈ calls, c.Sound)
    (howner : isOwner owner = true) (hspare : Slug.IsSlug spare) (hspec : spec.Obtained)
    (hreal : spec.RealFree)
    (hworks : ∀ e, (s.publish (s.after d₀ calls) spare time owner spec).1 = .error e →
      e.fault? = none) :
    ((∀ m ∈ (s.ledger owner d₀ {} calls).manifest, m.Readable) →
      ∃ b d', s.publish (s.after d₀ calls) spare time owner spec = (.ok b, d') ∧
        ∀ later : List Call, (∀ c ∈ later, c.Sound ∧ c.target ≠ owner) → ∀ spare' time',
          (spec.levels ≤ 126 ∨ b.reused = true →
            s.publish (s.after d' later) spare' time' owner spec =
              (.ok { b with reused := true }, s.after d' later)) ∧
          (¬ spec.levels ≤ 126 → b.reused = false →
            ∃ why, s.publish (s.after d' later) spare' time' owner spec =
              (.error (.cannotParse ((s.root.join owner).join manifestName) why),
                s.after d' later))) ∧
    ∀ m ∈ (s.ledger owner d₀ {} calls).manifest,
      (m.spec.Plain → (m.Readable ↔ m.spec.levels ≤ 126)) ∧
      (¬ m.Readable → ∃ why, s.publish (s.after d₀ calls) spare time owner spec =
        (.error (.cannotParse ((s.root.join owner).join manifestName) why), s.after d₀ calls)) := by
  obtain ⟨hconsistent, -⟩ := hroot.consistent.after hcalls
  generalize s.after d₀ calls = d at hworks hconsistent ⊢
  have htells := hconsistent.tells owner howner
  refine ⟨fun hreadable => ?_, fun m hm => ⟨Manifest.readable_iff, fun hunread => ?_⟩⟩
  · obtain ⟨previous, hload⟩ := htells.exists_load howner hreadable
    obtain ⟨b, d', hpublish⟩ := htells.exists_publish howner hspare hload hworks
    refine ⟨b, d', hpublish, fun later hlater => ?_⟩
    -- calls for other owners keep away from the directory of this one
    have hapart : s.Apart owner d' (s.after d' later) := by
      obtain ⟨hnext, -⟩ := hconsistent.call (c := .publish spare time owner spec) hspare
      rw [Call.run, hpublish] at hnext
      exact (hnext.after fun c hc => (hlater c hc).1).2 owner fun c hc => (hlater c hc).2
    exact htells.found_again hconsistent.direct hspare hload hpublish ⟨hspec.ordered, hreal⟩
      hapart
  · obtain ⟨why, hparse⟩ := Manifest.not_readable hunread
    exact ⟨why, (htells.noted hm).publish_of_error howner hparse spare time spec⟩

section Demo

/-! One specification takes the place of another one, and one that is too deep is published. -/

theorem obtained_demoTwin : demoTwin.Obtained := by
  have hdecode : Spec.decode "\x7b\"title\":\"demo\",\"summary\":\"\",\"key_screens\":[]\x7d" =
      .ok demoTwin := rfl
  exact .decoded hdecode

theorem replacing_demoTwin (b b' : Bundle) {m : Manifest} (hpath : m.path = ⟨"out/ann/demo"⟩) :
    (runActs (demoDisk b demoManifest)
      (demoStore.replacing (demoStore.root.join "ann") (some demoManifest) b' m)).2 = none := by
  have hstale : outdated (some demoManifest) ⟨"out/ann/demo"⟩ = none := by
    rw [outdated, Option.filter_some, if_neg (by decide), Option.map_none]
  simp only [replacing, storing, Bundle.files, List.map_cons, List.map_nil, hpath, join_demo,
    hstale]
  rfl

theorem works_demoTwin : ∀ e, (demoStore.publish (demoStore.after {} [demoCall]) "0a1b2c3d" "today"
    "ann" demoTwin).1 = .error e → e.fault? = none := by
  have hload := load_demo (d := demoDisk demoBundle demoManifest) rfl rfl parse_demo
  rw [after_demo]
  intro e he
  rcases publish_cases (by decide) hload "0a1b2c3d" "today" demoTwin with
    ⟨m, -, -, -, hpublish⟩ | ⟨-, -, hpublish⟩
  · rw [hpublish] at he
    cases he
  · have hrun := replacing_demoTwin demoBundle (Bundle.compile "0a1b2c3d" demoTwin) path_demoTwin
    rw [hpublish, acts_demoTwin] at he
    generalize demoStore.manifestFor "0a1b2c3d" "today" "ann" demoTwin = m at hrun he
    rcases hd : runActs (demoDisk demoBundle demoManifest)
      (demoStore.replacing (demoStore.root.join "ann") (some demoManifest)
        (Bundle.compile "0a1b2c3d" demoTwin) m) with ⟨d, _ | e'⟩
    · rw [hd] at he
      cases he
    · rw [hd] at hrun
      cases hrun

theorem publish_again_demoTwin :
    ∃ b d, demoStore.publish (demoStore.after {} [demoCall]) "0a1b2c3d" "today" "ann" demoTwin =
        (.ok b, d) ∧
      ∀ later : List Call, (∀ c ∈ later, c.Sound ∧ c.target ≠ "ann") → ∀ spare time,
        demoStore.publish (demoStore.after d later) spare time "ann" demoTwin =
          (.ok { b with reused := true }, demoStore.after d later) := by
  have hsound : ∀ c ∈ [demoCall], c.Sound := by
    intro c hc
    rw [List.mem_singleton.mp hc]
    exact isSlug_demo
  have hplain : ∀ c ∈ [demoCall], c.target = "ann" → ∀ t ∈ c.spec?, t.Plain ∧ t.levels ≤ 126 := by
    intro c hc _ t ht
    rw [List.mem_singleton.mp hc] at ht
    rw [← Option.some.inj ht]
    exact ⟨plain_demo, by decide⟩
  obtain ⟨hpublished, -⟩ := publish_again emptyRoot_demo hsound (by decide) isSlug_demo
    obtained_demoTwin nofun works_demoTwin
  obtain ⟨b, d, hpublish, hagain⟩ := hpublished (readable_of_calls hplain)
  exact ⟨b, d, hpublish, fun later hlater spare time =>
    (hagain later hlater spare time).1 (.inl (by decide))⟩

def nested : Nat → Json.Value
  | 0 => .list []
  | n + 1 => .list [nested n]

theorem levels_nested (n : Nat) : (nested n).levels = n + 1 := by
  induction n with
  | zero => rfl
  | succ n ih =>
    rw [nested, Json.Value.levels, Json.Value.levelsOfItems, Json.Value.levelsOfItems, ih]
    exact congrArg (· + 1) (Nat.max_zero _)

theorem wellFormed_nested (n : Nat) : (nested n).WellFormed := by
  induction n with
  | zero => exact .list nofun
  | succ n ih => exact .list fun v hv => List.mem_singleton.mp hv ▸ ih

theorem realFree_nested (n : Nat) : (nested n).RealFree := by
  induction n with
  | zero => exact .list nofun
  | succ n ih => exact .list fun v hv => List.mem_singleton.mp hv ▸ ih

def deepSpec : Spec := { demoSpec with metadata := some [("x", nested 124)] }

theorem plain_deep : deepSpec.Plain where
  ordered := by
    refine ⟨nofun, ?_⟩
    rintro m ⟨⟩
    refine .object (List.pairwise_singleton _ _) fun p hp => ?_
    rw [List.mem_singleton.mp hp]
    exact wellFormed_nested 124
  realFree := by
    rintro m ⟨⟩
    refine .object fun p hp => ?_
    rw [List.mem_singleton.mp hp]
    exact realFree_nested 124

theorem levels_deep : deepSpec.levels = 127 := by
  have hmembers : Spec.record.members deepSpec =
      [("title", .text "Demo"), ("summary", .text ""), ("key_screens", .list []),
        ("metadata", .object [("x", nested 124)])] := rfl
  rw [Spec.levels, Json.Record.ordered, hmembers]
  simp [Json.Value.levels, Json.Value.levelsOfMembers, Json.Value.levelsOfItems, levels_nested]

theorem obtained_deep : deepSpec.Obtained := by
  have hdecode : Spec.decode deepSpec.indented = .ok deepSpec :=
    (Spec.recovers plain_deep.ordered plain_deep.realFree).decode.1 levels_deep.le
  exact .decoded hdecode

theorem publish_deep_twice :
    deepSpec.Obtained ∧ deepSpec.RealFree ∧
      ∃ b d why, demoStore.publish {} "0a1b2c3d" "today" "ann" deepSpec = (.ok b, d) ∧
        demoStore.publish d "0a1b2c3d" "today" "ann" deepSpec =
          (.error (.cannotParse ((demoStore.root.join "ann").join manifestName) why), d) := by
  refine ⟨obtained_deep, plain_deep.realFree, ?_⟩
  have howner : isOwner "ann" = true := by decide
  have hpath : (demoStore.manifestFor "0a1b2c3d" "today" "ann" deepSpec).path =
      ⟨"out/ann/demo"⟩ := path_demo (by decide)
  have hconsistent := emptyRoot_demo.consistent
  have htells := hconsistent.tells "ann" howner
  have hload := htells.loadManifest_none howner rfl
  rcases publish_cases howner hload "0a1b2c3d" "today" deepSpec with
    ⟨m, hm, -⟩ | ⟨-, hacts, hpublish⟩
  · cases hm
  · rw [hacts, replacing_demo _ hpath] at hpublish
    rcases htells.stands_or_installed hconsistent.direct isSlug_demo hload hpublish with
      ⟨m, hm, -⟩ | ⟨m, hspec, hplaced, hinstalled, -⟩
    · cases hm
    · have hdeep : ¬ m.spec.levels ≤ 126 := by
        rw [hspec, levels_deep]
        decide
      obtain ⟨why, hagain⟩ := publish_of_deep hinstalled hplaced (hspec ▸ plain_deep) hdeep
        (.refl demoStore "ann" _) "0a1b2c3d" "today" deepSpec
      exact ⟨_, _, why, hpublish, hagain⟩

end Demo

end Mockup.Store
