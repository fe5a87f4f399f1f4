import Mockup.Proofs.Spec.Valid
import Mockup.Spec.Placeholder

/-! Clean specifications: every text in them is filled, except that the summary may be empty and
that the cells of data and the metadata are free. A clean specification is valid. -/

namespace Mockup

open Text

structure Component.Clean (c : Component) : Prop where
  title : ∀ t ∈ c.title, Filled t
  description : ∀ t ∈ c.description, Filled t
  fields : ∀ xs ∈ c.fields, ∀ t ∈ xs, Filled t
  actions : ∀ t ∈ c.actions, Filled t
  sampleItems : ∀ xs ∈ c.sampleItems, ∀ t ∈ xs, Filled t

structure Screen.Clean (s : Screen) : Prop where
  name : Filled s.name
  goal : Filled s.goal
  primaryActions : ∀ t ∈ s.primaryActions, Filled t
  layoutNotes : ∀ t ∈ s.layoutNotes, Filled t
  components : ∀ c ∈ s.components, c.Clean
  hasComponent : s.components ≠ []

structure Spec.Clean (s : Spec) : Prop where
  title : Filled s.title
  summary : trimmed s.summary = s.summary
  goal : ∀ t ∈ s.goal, Filled t
  successMetrics : ∀ xs ∈ s.successMetrics, ∀ t ∈ xs, Filled t
  keyScreens : ∀ x ∈ s.keyScreens, x.Clean
  hasScreen : s.keyScreens ≠ []
  userFlow : ∀ xs ∈ s.userFlow, ∀ t ∈ xs, Filled t
  visualStyle : ∀ t ∈ s.visualStyle, Filled t
  callToAction : ∀ t ∈ s.callToAction, Filled t

theorem Spec.Clean.valid {s : Spec} (h : s.Clean) : s.validate = .ok () :=
  validate_eq_ok_iff.mpr ⟨h.title.not_blank, h.hasScreen, fun x hx =>
    ⟨(h.keyScreens x hx).name.not_blank, (h.keyScreens x hx).hasComponent⟩⟩

theorem Placeholder.clean_component {name goal : String} (hname : Filled name)
    (hgoal : Filled goal) : (component name goal).Clean where
  title := fun _ ht => Option.some.inj ht ▸ hname
  description := fun _ ht => Option.some.inj ht ▸ hgoal
  fields := nofun
  actions := nofun
  sampleItems := nofun

end Mockup
