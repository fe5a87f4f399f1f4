import Mockup.Proofs.Payload.Reading
import Mockup.Proofs.Spec.Clean

/-! Every specification that a payload is normalized to is clean, whatever its components and
screens were read from or made up of. -/

namespace Mockup.Payload

open Json Text

variable {v : Value} {m : Members}

theorem filled_of_findSome?_textList? {keys xs : List String}
    (h : (keys.findSome? fun key => (m.get? key).bind textList?) = some xs) :
    ∀ t ∈ xs, Filled t := by
  obtain ⟨key, -, hkey⟩ := List.exists_of_findSome?_eq_some h
  obtain ⟨w, -, hw⟩ := Option.bind_eq_some_iff.mp hkey
  exact filled_of_textList? hw

theorem filled_of_bind_textList? {o : Option Value} {xs : List String}
    (h : o.bind textList? = some xs) : ∀ t ∈ xs, Filled t := by
  obtain ⟨w, -, hw⟩ := Option.bind_eq_some_iff.mp h
  exact filled_of_textList? hw

theorem filled_of_bind_scalarText? {o : Option Value} {t : String}
    (h : o.bind scalarText? = some t) : Filled t := by
  obtain ⟨w, -, hw⟩ := Option.bind_eq_some_iff.mp h
  exact filled_of_scalarText? hw

theorem filled_getD_nil {o : Option (List String)} (h : ∀ xs ∈ o, ∀ t ∈ xs, Filled t) :
    ∀ t ∈ o.getD [], Filled t := by
  cases o with
  | none => nofun
  | some xs => exact h xs rfl

theorem filled_getD {o : Option String} {t : String} (h : ∀ s ∈ o, Filled s) (ht : Filled t) :
    Filled (o.getD t) := by
  cases o with
  | none => exact ht
  | some s => exact h s rfl

theorem filled_firstText?_getD {keys : List String} {t : String} (ht : Filled t) :
    Filled ((firstText? m keys).getD t) := filled_getD (fun _ => filled_of_firstText?) ht

theorem clean_of_component? {c : Component} (h : component? v = some c) : c.Clean := by
  cases v with
  | text s =>
    obtain ⟨body, hbody, rfl⟩ := Option.map_eq_some_iff.mp h
    have hfilled := Filled.of_filled? hbody
    exact {
      title := fun _ ht => Option.some.inj ht ▸ filled_shorten (by decide) hfilled
      description := fun _ ht => Option.some.inj ht ▸ hfilled
      fields := nofun
      actions := nofun
      sampleItems := nofun }
  | object raw =>
    obtain rfl := Option.some.inj h
    exact {
      title := fun _ ht => filled_of_firstText? ht
      description := fun _ ht => filled_of_firstText? ht
      fields := fun _ hxs => filled_of_bind_textList? hxs
      actions := filled_getD_nil fun _ hxs => filled_of_bind_textList? hxs
      sampleItems := fun _ hxs => filled_of_findSome?_textList? hxs }
  | _ => cases h

theorem clean_of_mem_componentsOf {vs : List Value} {c : Component} (h : c ∈ componentsOf vs) :
    c.Clean := by
  obtain ⟨w, -, hw⟩ := List.mem_filterMap.mp h
  exact clean_of_component? hw

theorem clean_of_mem_getD {o : Option (List Value)} {c : Component}
    (h : c ∈ (o.map componentsOf).getD []) : c.Clean := by
  cases o with
  | none => cases h
  | some vs => exact clean_of_mem_componentsOf h

theorem orPlaceholder_ne_nil (cs : List Component) (name goal : String) :
    orPlaceholder cs name goal ≠ [] := by
  rw [orPlaceholder]
  split
  · exact List.cons_ne_nil _ _
  · next h => exact List.isEmpty_iff.not.mp h

theorem clean_of_mem_orPlaceholder {cs : List Component} {name goal : String} {c : Component}
    (hcs : ∀ c ∈ cs, c.Clean) (hname : Filled name) (hgoal : Filled goal)
    (h : c ∈ orPlaceholder cs name goal) : c.Clean := by
  rw [orPlaceholder] at h
  split at h
  · obtain rfl := List.mem_singleton.mp h
    exact Placeholder.clean_component hname hgoal
  · exact hcs c h

theorem filled_placeholderGoal : Filled Placeholder.goal := by rw [Filled]; decide

theorem clean_of_screen? {place : Nat} {s : Screen} (h : screen? place v = some s) : s.Clean := by
  cases v with
  | text t =>
    obtain ⟨name, hname, rfl⟩ := Option.map_eq_some_iff.mp h
    have hfilled := Filled.of_filled? hname
    exact {
      name := hfilled
      goal := filled_placeholderGoal
      primaryActions := nofun
      layoutNotes := nofun
      components := fun c hc => List.mem_singleton.mp hc ▸
        Placeholder.clean_component hfilled filled_placeholderGoal
      hasComponent := List.cons_ne_nil _ _ }
  | object raw =>
    obtain rfl := Option.some.inj h
    exact {
      name := filled_firstText?_getD (filled_numberedName place)
      goal := filled_firstText?_getD filled_placeholderGoal
      primaryActions := filled_getD_nil fun _ hxs => filled_of_findSome?_textList? hxs
      layoutNotes := fun _ ht => filled_of_firstText? ht
      components := fun c hc => clean_of_mem_orPlaceholder (fun c => clean_of_mem_getD)
        (filled_firstText?_getD (filled_numberedName place))
        (filled_firstText?_getD filled_placeholderGoal) hc
      hasComponent := orPlaceholder_ne_nil _ _ _ }
  | _ => cases h

theorem clean_of_mem_screensFrom {place : Nat} {vs : List Value} {s : Screen}
    (h : s ∈ screensFrom place vs) : s.Clean := by
  induction vs generalizing place with
  | nil => cases h
  | cons v vs ih =>
    rw [screensFrom] at h
    split at h
    · next x hx =>
      rcases List.mem_cons.mp h with rfl | h
      · exact clean_of_screen? hx
      · exact ih h
    · exact ih h

theorem clean_of_screens? {xs : List Screen} (h : screens? m = some xs) :
    xs ≠ [] ∧ ∀ x ∈ xs, x.Clean := by
  obtain ⟨source, -, hsource⟩ := List.exists_of_findSome?_eq_some h
  split at hsource
  · cases hsource
  · next x rest hxs =>
    obtain rfl := Option.some.inj hsource
    refine ⟨List.cons_ne_nil _ _, fun y hy => ?_⟩
    rw [← hxs] at hy
    exact clean_of_mem_screensFrom hy

theorem filled_title (ctx : Context) (m : Members) : Filled (title ctx m) := by
  refine filled_getD (fun t ht => ?_) (by rw [Filled]; decide)
  rcases Option.or_eq_some_iff.mp ht with ht | ⟨-, ht⟩
  · obtain ⟨w, -, hw⟩ := Option.bind_eq_some_iff.mp ht
    exact filled_of_stringText? hw
  · exact .of_filled? ht

theorem filled_of_summary? {t : String} (h : summary? m = some t) : Filled t := by
  rw [summary?] at h
  split at h
  · exact .of_filled? h
  · exact filled_of_stringText? h
  · cases h

theorem trimmed_summary (ctx : Context) (m : Members) :
    trimmed (summary ctx m) = summary ctx m := by
  rw [summary]
  cases h : summary? m with
  | none => exact trimmed_trimmed ctx.summary
  | some t => exact (filled_of_summary? h).trimmed_eq

theorem filled_of_bind_filled? {o : Option String} {t : String} (h : o.bind filled? = some t) :
    Filled t := by
  obtain ⟨s, -, hs⟩ := Option.bind_eq_some_iff.mp h
  exact .of_filled? hs

theorem filled_of_goal? {ctx : Context} {t : String} (h : goal? ctx m = some t) : Filled t := by
  rcases Option.or_eq_some_iff.mp h with h | ⟨-, h⟩
  · exact filled_of_bind_scalarText? h
  · exact filled_of_bind_filled? h

theorem filled_of_mem_successMetrics {t : String} (h : t ∈ successMetrics m) : Filled t := by
  rw [successMetrics] at h
  split at h
  · obtain ⟨w, -, hw⟩ := List.mem_filterMap.mp h
    exact filled_of_itemText? hw
  · rcases List.mem_cons.mp h with rfl | h
    · rw [Filled]; decide
    · obtain rfl := List.mem_singleton.mp h
      rw [Filled]; decide

theorem clean_standIn {ctx : Context} {goal : String} (hgoal : Filled goal) :
    (standIn ctx m goal).Clean := by
  rw [standIn]
  split
  · exact {
      title := fun _ ht => Option.some.inj ht ▸ filled_title ctx m
      description := fun _ ht => Option.some.inj ht ▸ filled_getD (fun _ => .of_filled?) hgoal
      fields := nofun
      actions := nofun
      sampleItems := nofun }
  · next item items hitems =>
    exact {
      title := fun _ ht => Option.some.inj ht ▸ by rw [Filled]; decide
      description := nofun
      fields := nofun
      actions := nofun
      sampleItems := fun xs hxs t ht => by
        obtain rfl := Option.some.inj hxs
        exact ctx.filled_noteItems t (hitems ▸ List.mem_of_mem_take ht) }

theorem clean_madeUpScreen (ctx : Context) (m : Members) : (madeUpScreen ctx m).Clean := by
  -- the goal is needed twice, for the screen and for the component that stands in
  have hgoal : Filled (madeUpScreen ctx m).goal := by
    refine filled_getD (fun t ht => ?_) filled_placeholderGoal
    rcases Option.or_eq_some_iff.mp ht with ht | ⟨-, ht⟩
    · rcases Option.or_eq_some_iff.mp ht with ht | ⟨-, ht⟩
      · exact filled_of_goal? ht
      · exact .of_filled? ht
    · exact .of_filled? ht
  exact {
    name := by
      refine filled_getD (fun t ht => ?_) (by rw [Filled]; decide)
      obtain ⟨focus, hfocus, rfl⟩ := Option.map_eq_some_iff.mp ht
      exact filled_shorten (by decide) (.of_filled? hfocus)
    goal := hgoal
    primaryActions := nofun
    layoutNotes := nofun
    components := fun c hc => by
      rw [madeUpScreen] at hc
      dsimp only at hc
      split at hc
      · obtain rfl := List.mem_singleton.mp hc
        exact clean_standIn hgoal
      · exact clean_of_mem_getD hc
    hasComponent := by
      rw [madeUpScreen]
      dsimp only
      split
      · exact List.cons_ne_nil _ _
      · next h => exact List.isEmpty_iff.not.mp h }

theorem clean_keyScreens (ctx : Context) (m : Members) :
    keyScreens ctx m ≠ [] ∧ ∀ x ∈ keyScreens ctx m, x.Clean := by
  rw [keyScreens]
  cases h : screens? m with
  | some xs => exact clean_of_screens? h
  | none => exact ⟨List.cons_ne_nil _ _, fun x hx =>
      List.mem_singleton.mp hx ▸ clean_madeUpScreen ctx m⟩

theorem clean_specOf (ctx : Context) (m : Members) : (specOf ctx m).Clean where
  title := filled_title ctx m
  summary := trimmed_summary ctx m
  goal := fun _ => filled_of_goal?
  successMetrics := fun _ hxs _ ht => filled_of_mem_successMetrics (Option.some.inj hxs ▸ ht)
  keyScreens := (clean_keyScreens ctx m).2
  hasScreen := (clean_keyScreens ctx m).1
  userFlow := fun _ => filled_of_bind_textList?
  visualStyle := fun _ => filled_of_bind_scalarText?
  callToAction := fun _ => filled_of_bind_scalarText?

end Mockup.Payload
