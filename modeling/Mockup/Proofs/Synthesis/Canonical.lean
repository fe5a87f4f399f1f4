import Mockup.Proofs.Payload.Idempotent
import Mockup.Proofs.Text.LowerCase
import Mockup.Synthesis

/-! Specifications made from a project alone. They are clean and ordered and leave nothing to fill
in, so that they are valid and that normalizing the value of one gives it back. -/

namespace Mockup.Synthesis

open Json Text

theorem filled_clean {x : Option String} {t : String} (h : clean x = some t) : Filled t :=
  Payload.filled_of_bind_filled? h

theorem filled_of_mem_statedGoals {p : Project} {t : String} (h : t ∈ p.statedGoals) :
    Filled t := by
  obtain ⟨goal, -, hgoal⟩ := List.mem_filterMap.mp h
  exact .of_filled? hgoal

section Sentences

variable {s t u : String} {xs : List String}

theorem filled_one (h : Filled t) : ∀ u ∈ [t], Filled u := List.forall_mem_singleton.mpr h

theorem filled_some (h : Filled t) : ∀ u ∈ some t, Filled u := fun _ hu => Option.some.inj hu ▸ h

theorem filled_listed (h : ∀ t ∈ xs, Filled t) : ∀ ys ∈ some xs, ∀ t ∈ ys, Filled t :=
  fun _ hys => Option.some.inj hys ▸ h

theorem filled_before (hs : StartsFilled s) (ht : Filled t) : Filled (s ++ t) :=
  filled_iff_ends.mpr ⟨hs.append t, ht.ends.append s⟩

theorem filled_around (hs : StartsFilled s) (hu : EndsFilled u) : Filled (s ++ t ++ u) :=
  filled_iff_ends.mpr ⟨(hs.append t).append u, hu.append (s ++ t)⟩

end Sentences

section Screens

variable {title goal metric : String} {focus phase : Option String} {goals : List String}

theorem clean_welcome (htitle : Filled title) (hgoal : Filled goal) (hmetric : Filled metric) :
    (welcome title goal metric).Clean where
  name := (rfl : Filled "Welcome")
  goal := filled_around ⟨'E', rfl, rfl⟩ ⟨'s', rfl, rfl⟩
  primaryActions := filled_one rfl
  layoutNotes := filled_some rfl
  hasComponent := List.cons_ne_nil _ _
  components := by
    refine List.forall_mem_cons.mpr ⟨?hero, List.forall_mem_singleton.mpr ?stats⟩
    case hero => exact {
      title := filled_some htitle
      description := filled_some hgoal
      fields := nofun
      actions := filled_one rfl
      sampleItems := nofun }
    case stats => exact {
      title := filled_some rfl
      description := nofun
      fields := nofun
      actions := nofun
      sampleItems := filled_listed (filled_one hmetric) }

theorem clean_phaseNote (phase : String) : (phaseNote phase).Clean where
  title := filled_some rfl
  description := filled_some (filled_around ⟨'S', rfl, rfl⟩ ⟨'.', rfl, rfl⟩)
  fields := nofun
  actions := nofun
  sampleItems := nofun

theorem clean_focusScreen (hfocus : ∀ t ∈ focus, Filled t) (hgoals : ∀ t ∈ goals, Filled t) :
    (focusScreen focus goals phase).Clean := by
  have hname : Filled (focus.getD "Key workflow") := Payload.filled_getD hfocus rfl
  exact {
    name := hname
    goal := filled_iff_ends.mpr ⟨.append ⟨'W', rfl, rfl⟩ _, .append _ hname.ends.lowerCase⟩
    primaryActions := filled_one rfl
    layoutNotes := nofun
    hasComponent := List.cons_ne_nil _ _
    components := by
      refine List.forall_mem_cons.mpr ⟨?list, fun c hc => ?phase⟩
      case list => exact {
        title := filled_some rfl
        description := nofun
        fields := nofun
        actions := nofun
        sampleItems := filled_listed <| by
          cases goals with
          | nil => decide
          | cons goal goals => exact hgoals }
      case phase =>
        obtain ⟨phase, -, rfl⟩ := Option.map_eq_some_iff.mp (Option.mem_toList.mp hc)
        exact clean_phaseNote phase }

theorem clean_interaction (hfocus : ∀ t ∈ focus, Filled t) : (interaction title focus).Clean where
  name := (rfl : Filled "Try it")
  goal := filled_around ⟨'L', rfl, rfl⟩ ⟨'n', rfl, rfl⟩
  primaryActions := filled_one rfl
  layoutNotes := filled_some rfl
  hasComponent := List.cons_ne_nil _ _
  components := by
    refine List.forall_mem_cons.mpr ⟨?form, List.forall_mem_singleton.mpr ?list⟩
    case form => exact {
      title := filled_some (filled_before ⟨'D', rfl, rfl⟩ (Payload.filled_getD hfocus rfl))
      description := nofun
      fields := filled_listed (by decide)
      actions := filled_one rfl
      sampleItems := nofun }
    case list => exact {
      title := filled_some rfl
      description := nofun
      fields := nofun
      actions := nofun
      sampleItems := filled_listed (filled_one rfl) }

theorem clean_conversion (title : String) : (conversion title).Clean where
  name := (rfl : Filled "Get started")
  goal := filled_around ⟨'T', rfl, rfl⟩ ⟨'p', rfl, rfl⟩
  primaryActions := filled_one rfl
  layoutNotes := nofun
  hasComponent := List.cons_ne_nil _ _
  components := by
    refine List.forall_mem_cons.mpr ⟨?cta, List.forall_mem_singleton.mpr ?form⟩
    case cta => exact {
      title := filled_some rfl
      description := filled_some (filled_around ⟨'B', rfl, rfl⟩ ⟨'.', rfl, rfl⟩)
      fields := nofun
      actions := filled_one rfl
      sampleItems := nofun }
    case form => exact {
      title := filled_some rfl
      description := nofun
      fields := filled_listed (filled_one rfl)
      actions := filled_one rfl
      sampleItems := nofun }

theorem filled_metrics (hmetric : Filled metric) (hgoals : ∀ t ∈ goals, Filled t) :
    ∀ t ∈ metrics metric goals, Filled t := by
  have hprogress : ∀ t ∈ (goals.take 2).map ("Progress on: " ++ ·), Filled t := by
    refine List.forall_mem_map.mpr fun goal hgoal => ?_
    exact filled_before ⟨'P', rfl, rfl⟩ (hgoals goal (List.mem_of_mem_take hgoal))
  have hstated : ∀ t ∈ ("Improve " ++ metric) :: (goals.take 2).map ("Progress on: " ++ ·),
      Filled t := List.forall_mem_cons.mpr ⟨filled_before ⟨'I', rfl, rfl⟩ hmetric, hprogress⟩
  rw [metrics]
  split
  · exact List.forall_mem_append.mpr ⟨hstated, by decide⟩
  · exact hstated

end Screens

variable (p : Project) (focus phase : Option String)

theorem filled_summary : Filled (spec p focus phase).summary := by
  have htitle : Filled ((filled? p.title).getD "New product concept") :=
    Payload.filled_getD (fun _ => .of_filled?) rfl
  simp only [spec]
  split
  · next f _ =>
    exact filled_iff_ends.mpr
      ⟨((htitle.starts.append _).append f).append ".", .append _ ⟨'.', rfl, rfl⟩⟩
  · exact filled_iff_ends.mpr ⟨htitle.starts.append _, .append _ ⟨'.', rfl, rfl⟩⟩

theorem clean_spec : (spec p focus phase).Clean := by
  have htitle : Filled ((filled? p.title).getD "New product concept") :=
    Payload.filled_getD (fun _ => .of_filled?) rfl
  have hgoals : ∀ t ∈ p.statedGoals, Filled t := fun _ => filled_of_mem_statedGoals
  have hgoal : Filled
      (p.statedGoals.head?.getD "Show the core value of the product in a few clicks") :=
    Payload.filled_getD (fun t ht => hgoals t (List.mem_of_mem_head? ht)) rfl
  have hmetric : Filled ((clean p.northStar).getD "Weekly active users") :=
    Payload.filled_getD (fun _ => filled_clean) rfl
  have hfocus : ∀ t ∈ clean focus, Filled t := fun _ => filled_clean
  have hscreens : ∀ x ∈ (spec p focus phase).keyScreens, x.Clean := by
    simp only [spec, List.forall_mem_cons]
    exact ⟨clean_welcome htitle hgoal hmetric, clean_focusScreen hfocus hgoals,
      clean_interaction hfocus, clean_conversion _, nofun⟩
  exact {
    title := htitle
    summary := (filled_summary p focus phase).trimmed_eq
    goal := filled_some hgoal
    successMetrics := filled_listed (filled_metrics hmetric hgoals)
    keyScreens := hscreens
    hasScreen := List.cons_ne_nil _ _
    userFlow := filled_listed (List.forall_mem_map.mpr fun x hx => (hscreens x hx).name)
    visualStyle := filled_some rfl
    callToAction := filled_some rfl }

theorem wellFormed_metadata (focus phase : Option String) :
    (Value.object (metadata focus phase)).WellFormed := by
  have hkeys : ((metadata focus phase).map Prod.fst).Sublist ["fallback", "focus", "phase"] := by
    cases focus <;> cases phase <;> simp [metadata]
  have hsorted : ["fallback", "focus", "phase"].Pairwise (· < ·) := by decide
  refine .object (List.pairwise_map.mp (hsorted.sublist hkeys)) fun q hq => ?_
  simp only [metadata, List.mem_append, List.mem_singleton, Option.mem_toList,
    Option.map_eq_some_iff] at hq
  rcases hq with (rfl | ⟨f, -, rfl⟩) | ⟨t, -, rfl⟩
  · exact .bool true
  · exact .text f
  · exact .text t

theorem dataset_eq_none {x : Screen} (hx : x ∈ (spec p focus phase).keyScreens) {c : Component}
    (hc : c ∈ x.components) : c.dataset = none := by
  simp only [spec, List.mem_cons, List.not_mem_nil, or_false] at hx
  rcases hx with rfl | rfl | rfl | rfl
  · simp only [welcome, List.mem_cons, List.not_mem_nil, or_false] at hc
    rcases hc with rfl | rfl <;> rfl
  · rcases List.mem_cons.mp hc with rfl | hc
    · rfl
    · obtain ⟨t, -, rfl⟩ := Option.map_eq_some_iff.mp (Option.mem_toList.mp hc)
      rfl
  · simp only [interaction, List.mem_cons, List.not_mem_nil, or_false] at hc
    rcases hc with rfl | rfl <;> rfl
  · simp only [conversion, List.mem_cons, List.not_mem_nil, or_false] at hc
    rcases hc with rfl | rfl <;> rfl

theorem ordered_spec : (spec p focus phase).Ordered where
  components := fun x hx c hc rows hrows => by
    rw [dataset_eq_none p focus phase hx hc] at hrows
    cases hrows
  metadata := fun _ hm => Option.some.inj hm ▸ wellFormed_metadata _ _

theorem settled_spec {ctx : Context} (h : ctx.noteItems = []) :
    ctx.Settled (spec p focus phase) where
  summary := fun hempty => absurd hempty (filled_summary p focus phase).ne_empty
  goal := nofun
  successMetrics := nofun
  metadata := .inl h

theorem isFallback_spec : (spec p focus phase).isFallback = true := rfl

/-- A specification made from a project alone is valid, carries its mark, and is what its own value
is normalized to, as long as the notes have no items to add. -/
theorem spec_canonical (p : Project) (focus phase : Option String) :
    let s := spec p focus phase
    s.validate = .ok () ∧ s.isFallback = true ∧ s.userFlow = some (s.keyScreens.map Screen.name) ∧
      ∀ ctx : Context, ctx.noteItems = [] → Payload.normalize ctx s.toValue = .ok s :=
  ⟨(clean_spec p focus phase).valid, isFallback_spec p focus phase, rfl, fun _ hnotes =>
    Payload.normalize_toValue (clean_spec p focus phase) (ordered_spec p focus phase)
      (settled_spec p focus phase hnotes)⟩

theorem spec_canonical_sparse :
    let p : Project := { title := " ", goals := ["", " Sell "], northStar := some "\t" }
    let ctx : Context := { title := "Shop", notes := some "No list here." }
    let s := spec p (some "Tai\u0130 ") (some "")
    ctx.noteItems = [] ∧ s.title = "New product concept" ∧
      s.keyScreens.map Screen.name = ["Welcome", "Tai\u0130", "Try it", "Get started"] ∧
      Payload.normalize ctx s.toValue = .ok s := by
  have hnotes : ({ title := "Shop", notes := some "No list here." } : Context).noteItems = [] := by
    decide
  exact ⟨hnotes, rfl, rfl, (spec_canonical _ _ _).2.2.2 _ hnotes⟩

end Mockup.Synthesis
