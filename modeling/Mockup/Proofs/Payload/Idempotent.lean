import Mockup.Proofs.Payload.Ordered
import Mockup.Proofs.Payload.Readable
import Mockup.Proofs.Payload.Rereading

/-! Normalizing twice. A specification that is clean and ordered, and that leaves nothing for the
context to fill in or to add, is normalized to itself; every normalized payload is of this form. -/

namespace Mockup

open Json Text

/-- The context has nothing to fill in and nothing to add. -/
structure Context.Settled (ctx : Context) (s : Spec) : Prop where
  summary : s.summary = "" → trimmed ctx.summary = ""
  goal : s.goal = none → ctx.goal.bind filled? = none
  successMetrics : s.successMetrics ≠ none
  metadata : ctx.noteItems = [] ∨
    ∃ m, s.metadata = some m ∧ m.get? "assistant_metrics" = some (.texts ctx.noteItems)

namespace Payload

variable {ctx : Context} {s : Spec} {m : Members}

theorem title_eq (hclean : Filled s.title) (h : m.get? "title" = some (.text s.title)) :
    title ctx m = s.title := by
  have hread : stringText? (.text s.title) = some s.title := hclean
  rw [title, h, Option.bind_some, hread]
  rfl

theorem summary_eq (hclean : s.Clean) (hsettled : ctx.Settled s)
    (h : m.get? "summary" = some (.text s.summary)) : summary ctx m = s.summary := by
  have hread : summary? m = filled? s.summary := by
    rw [summary?, h]
    rfl
  rw [summary, hread]
  by_cases hempty : s.summary = ""
  · -- an empty summary is read as none, and the context has no other
    rw [hsettled.summary hempty, hempty]
    rfl
  · have hfilled : Filled s.summary := by
      refine filled_iff.mpr ⟨?_, hempty⟩
      have htoList := congrArg String.toList hclean.summary
      rwa [trimmed, String.toList_ofList] at htoList
    rw [hfilled, Option.getD_some]

theorem goal?_eq (hclean : ∀ t ∈ s.goal, Filled t) (hsettled : ctx.Settled s)
    (h : m.get? "goal" = s.goal.map .text) : goal? ctx m = s.goal := by
  rw [goal?, explicitGoal?, h, bind_scalarText? hclean]
  cases hgoal : s.goal with
  | none => rw [hsettled.goal hgoal, Option.none_or]
  | some t => rfl

theorem successMetrics_eq (hclean : ∀ xs ∈ s.successMetrics, ∀ t ∈ xs, Filled t)
    (hsettled : ctx.Settled s) (h : m.get? "success_metrics" = s.successMetrics.map .texts) :
    some (successMetrics m) = s.successMetrics := by
  cases hmetrics : s.successMetrics with
  | none => exact absurd hmetrics hsettled.successMetrics
  | some xs =>
    rw [successMetrics, h, hmetrics]
    exact congrArg some (filterMap_itemText?_texts (hclean xs hmetrics))

theorem screens?_eq (hclean : s.Clean) (hordered : s.Ordered)
    (h : m.get? "key_screens" = some (.list (s.keyScreens.map Screen.record.toValue))) :
    screens? m = some s.keyScreens := by
  have hlist : listAt m "key_screens" = s.keyScreens.map Screen.record.toValue := by
    rw [listAt, h]
    rfl
  rw [screens?, screenSources, List.findSome?_cons, hlist,
    screensFrom_toValue 0 hclean.keyScreens hordered.components]
  cases hxs : s.keyScreens with
  | nil => exact absurd hxs hclean.hasScreen
  | cons x xs => rfl

theorem metadata?_eq (hordered : s.Ordered) (hsettled : ctx.Settled s)
    (h : m.get? "metadata" = s.metadata.map fun d => (Value.object d).normal) :
    metadata? ctx m = s.metadata := by
  have hown : (m.get? "metadata").bind Value.object? = s.metadata := by
    rw [h]
    cases hd : s.metadata with
    | none => rfl
    | some d =>
      rw [Option.map_some, (hordered.metadata d hd).normal_eq]
      rfl
  simp only [metadata?, hown]
  split
  · rfl
  · next hitems =>
    -- the items are set once more where they already are
    obtain ⟨d, hd, hget⟩ := hsettled.metadata.resolve_left hitems
    rw [hd, Option.getD_some, (hordered.metadata d hd).sorted.set_eq_self hget]

theorem specOf_sortedMembers (hclean : s.Clean) (hordered : s.Ordered) (hsettled : ctx.Settled s) :
    specOf ctx (Spec.record.sortedMembers s) = s := by
  obtain ⟨htitle, hsummary, hgoal, hmetrics, hscreens, hflow, hstyle, hcall, hmetadata⟩ :=
    s.members_spec
  rw [specOf, title_eq hclean.title htitle, summary_eq hclean hsettled hsummary,
    goal?_eq hclean.goal hsettled hgoal,
    successMetrics_eq hclean.successMetrics hsettled hmetrics, keyScreens,
    screens?_eq hclean hordered hscreens, Option.getD_some, hflow, bind_textList? hclean.userFlow,
    hstyle, bind_scalarText? hclean.visualStyle, hcall, bind_scalarText? hclean.callToAction,
    metadata?_eq hordered hsettled hmetadata]

theorem unwrap_sortedMembers (s : Spec) :
    unwrap (Spec.record.sortedMembers s) = Spec.record.sortedMembers s := by
  rw [unwrap, Spec.record.get?_eq_none s (by decide), Spec.record.get?_eq_none s (by decide)]
  rfl

theorem normalize_toValue (hclean : s.Clean) (hordered : s.Ordered) (hsettled : ctx.Settled s) :
    normalize ctx s.toValue = .ok s := by
  refine normalize_ok_iff.mpr ⟨Spec.record.sortedMembers s, rfl, ?_⟩
  rw [unwrap_sortedMembers, rename_sortedMembers Spec.record s .spec (by decide),
    specOf_sortedMembers hclean hordered hsettled]

theorem settled_specOf (ctx : Context) (m : Members) : ctx.Settled (specOf ctx m) where
  summary := by
    intro h
    change summary ctx m = "" at h
    rw [summary] at h
    cases hread : summary? m with
    | none => rwa [hread] at h
    | some t =>
      rw [hread] at h
      exact absurd h (filled_of_summary? hread).ne_empty
  goal := fun h => (Option.or_eq_none_iff.mp h).2
  successMetrics := nofun
  metadata := by
    change _ ∨ ∃ d, metadata? ctx m = some d ∧ _
    rw [metadata?]
    split
    · next hitems => exact .inl hitems
    · refine .inr ⟨_, rfl, ?_⟩
      rw [Members.get?_set, if_pos rfl]

theorem normalize_idempotent {raw : Value} (hraw : raw.WellFormed)
    (h : normalize ctx raw = .ok s) : normalize ctx s.toValue = .ok s := by
  obtain ⟨m, hroot, rfl⟩ := normalize_ok_iff.mp h
  have hm := wellFormed_rename .spec (wellFormed_unwrap (wellFormed_root hraw hroot))
  exact normalize_toValue (clean_specOf ctx _) (ordered_specOf ctx hm) (settled_specOf ctx _)

theorem normalize_idempotent_with_items :
    let ctx : Context := { title := "Shop", notes := some "Goals:\n- **Fast**" }
    let m : Members :=
      [("metadata", .object [("assistant_metrics", .bool true)]), ("pages", .list [.text " Home "])]
    let s : Spec :=
      { title := "Shop"
        summary := ""
        successMetrics := some Placeholder.metrics
        keyScreens := [
          { name := "Home"
            goal := Placeholder.goal
            components := [Placeholder.component "Home" Placeholder.goal] }]
        metadata := some [("assistant_metrics", .texts ["Fast"])] }
    (Value.object m).WellFormed ∧ normalize ctx (.object m) = .ok s ∧
      normalize ctx s.toValue = .ok s := by
  have hmetadata : (Value.object [("assistant_metrics", .bool true)]).WellFormed :=
    .object (List.pairwise_singleton _ _) (by simp [Value.WellFormed.bool])
  have hpages : (Value.list [.text " Home "]).WellFormed := .list (by simp [Value.WellFormed.text])
  have hraw : (Value.object [("metadata", .object [("assistant_metrics", .bool true)]),
      ("pages", .list [.text " Home "])]).WellFormed :=
    .object (by rw [Members.Sorted]; decide) (by simp [hmetadata, hpages])
  exact ⟨hraw, rfl, normalize_idempotent hraw rfl⟩

end Payload

end Mockup
