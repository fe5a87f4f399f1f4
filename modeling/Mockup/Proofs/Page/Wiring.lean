import Mockup.Proofs.Page.Blocks
import Mockup.Proofs.Page.Current

/-! What changes a component of a page. A list is added to by one button and a form is saved by
itself, and each of them is wired to the place that its component has in the specification, whatever
was typed since the page was shown. -/

namespace Mockup

def Spec.componentAt? (s : Spec) (place : Page.Place) : Option Component :=
  s.keyScreens[place.1]?.bind fun x => x.components[place.2]?

namespace Page

open View Element

namespace Element

def addsTo? (e : Element) : Option Place :=
  match e.head.onClick with
  | some (.addItem place) => some place
  | _ => none

def savesTo? (e : Element) : Option Place := e.head.onSubmit.map Submission.place

def wiredTo? (e : Element) : Option Place := (savesTo? e).or (addsTo? e)

def controls (es : List Element) : List (Place × Element) :=
  (all es).filterMap fun e => (wiredTo? e).map fun place => (place, e)

def Found.adds? (f : Found) : Option Place :=
  if f.element.head.type = "submit" then none else addsTo? f.element

def Found.saves? (f : Found) : Option Place :=
  if f.element.head.type = "submit" then f.form.bind savesTo? else none

def Found.edits? (f : Found) : Option Place := f.saves?.or f.adds?

section Controls

variable {es : List Element} {form : Option Element} {place : Place}

theorem mem_controls_iff {e : Element} :
    (place, e) ∈ controls es ↔ e ∈ all es ∧ wiredTo? e = some place := by
  rw [controls, List.mem_filterMap]
  constructor
  · rintro ⟨e', he', hwired⟩
    obtain ⟨place', hplace, heq⟩ := Option.map_eq_some_iff.mp hwired
    obtain ⟨rfl, rfl⟩ := Prod.mk.inj heq
    exact ⟨he', hplace⟩
  · rintro ⟨he, hplace⟩
    exact ⟨e, he, by rw [hplace]; rfl⟩

theorem controls_append (es fs : List Element) :
    controls (es ++ fs) = controls es ++ controls fs := by
  rw [controls, all_append, List.filterMap_append]
  rfl

theorem controls_cons (e : Element) (es : List Element) :
    controls (e :: es) = controls [e] ++ controls es := controls_append [e] es

theorem controls_eq_flatMap (es : List Element) :
    controls es = es.flatMap fun e => controls [e] := by
  induction es with
  | nil => rfl
  | cons e es ih => rw [controls_cons, ih, List.flatMap_cons]

theorem controls_node {h : Head} {cs : List Element} (hnode : wiredTo? (.node h cs) = none) :
    controls [.node h cs] = controls cs := by
  rw [controls, all_cons, all_nil, List.append_nil, List.filterMap_cons, hnode]
  rfl

theorem controls_wired {e : Element} (he : wiredTo? e = some place) :
    controls [e] = (place, e) :: controls e.children := by
  rw [controls, all_cons, all_nil, List.append_nil, List.filterMap_cons, he]
  rfl

theorem controls_unwired (h : Every (fun f => wiredTo? f.element = none) form es) :
    controls es = [] := by
  have hall := h.of_mem_all (P := fun e => wiredTo? e = none)
  refine List.filterMap_eq_nil_iff.mpr fun e he => ?_
  rw [hall e he]
  rfl

theorem wiredTo?_untyped (e : Element) : wiredTo? e.untyped = wiredTo? e := by
  rw [wiredTo?, wiredTo?, savesTo?, savesTo?, addsTo?, addsTo?, head_untyped,
    Head.onSubmit_untyped, Head.onClick_untyped]

theorem map_untyped_controls (es : List Element) :
    (controls es).map (Prod.map id untyped) = controls (untypedAll es) := by
  rw [controls, controls, ← map_untyped_all, List.filterMap_map, List.map_filterMap]
  refine List.filterMap_congr fun e _ => ?_
  rw [Function.comp_apply, wiredTo?_untyped, Option.map_map]
  rfl

mutual

theorem form_of_mem_found (form : Option Element) :
    (e : Element) → ∀ f ∈ found form e, f.form = form ∨ ∃ g ∈ all [e], f.form = some g
  | node h cs => by
    intro f hf
    rw [found, List.mem_cons] at hf
    rcases hf with rfl | hf
    · exact .inl rfl
    · rw [all_cons, all_nil, List.append_nil]
      rcases form_of_mem_foundAll _ cs f hf with hform | ⟨g, hg, hform⟩
      · split at hform
        · exact .inr ⟨_, List.mem_cons_self, hform⟩
        · exact .inl hform
      · exact .inr ⟨g, List.mem_cons_of_mem _ hg, hform⟩

theorem form_of_mem_foundAll (form : Option Element) :
    (es : List Element) → ∀ f ∈ foundAll form es, f.form = form ∨ ∃ g ∈ all es, f.form = some g
  | [] => nofun
  | e :: es => by
    intro f hf
    have hcons : all (e :: es) = all [e] ++ all es := all_append [e] es
    rw [foundAll, List.mem_append] at hf
    rw [hcons]
    rcases hf with hf | hf
    · rcases form_of_mem_found form e f hf with hform | ⟨g, hg, hform⟩
      · exact .inl hform
      · exact .inr ⟨g, List.mem_append_left _ hg, hform⟩
    · rcases form_of_mem_foundAll form es f hf with hform | ⟨g, hg, hform⟩
      · exact .inl hform
      · exact .inr ⟨g, List.mem_append_right _ hg, hform⟩

end

theorem exists_control_of_edits {f : Found} (hf : f ∈ foundAll none es) (hwired : Wired f)
    (hedits : f.edits? = some place) :
    ∃ e, (place, e) ∈ controls es ∧ (f.saves? = some place → f.form = some e) := by
  cases hwired with
  | action className label form => cases hedits
  | adding className place' form =>
    obtain rfl := Option.some.inj hedits
    have hmem := List.mem_map_of_mem (f := Found.element) hf
    exact ⟨_, mem_controls_iff.mpr ⟨hmem, rfl⟩, nofun⟩
  | @submitting className label form submission hsubmit =>
    have hsaves : savesTo? form = some submission.place := by
      rw [savesTo?, hsubmit]
      rfl
    have hplace : place = submission.place := by
      have hor : ((savesTo? form).or none) = some place := hedits
      rw [hsaves] at hor
      exact (Option.some.inj hor).symm
    rw [← hplace] at hsaves
    rcases form_of_mem_foundAll none es _ hf with hform | ⟨g, hg, hform⟩
    · cases hform
    · obtain rfl := Option.some.inj hform
      refine ⟨form, mem_controls_iff.mpr ⟨hg, ?_⟩, fun _ => rfl⟩
      rw [wiredTo?, hsaves]
      rfl

end Controls

end Element

namespace Drawn

def adder (place : Place) : Element :=
  button (buttonClass false) "button" "Add item" (some (.addItem place))

def control? (st : State) (place : Place) (c : Component) : Option Element :=
  match c.kind with
  | .form => some (form st place c)
  | .list => some (adder place)
  | _ => none

end Drawn

section Drawn

abbrev Unwired (f : Element.Found) : Prop := wiredTo? f.element = none

variable (st : State) (place : Place) (c : Component)

theorem unwired_leaf (tag className text : String) :
    Every Unwired none [Drawn.leaf tag className text] := .childless rfl rfl

theorem unwired_said (tag className : String) (text : Option String) :
    Every Unwired none (Drawn.said tag className text) := by
  unfold Drawn.said
  cases text.filter (· ≠ "") with
  | none => exact .nil
  | some t => exact unwired_leaf tag className t

theorem unwired_row (labels : List String) (primaryFirst : Bool) :
    Every Unwired none (Drawn.row labels primaryFirst) := by
  unfold Drawn.row
  split
  · exact .nil
  · exact .box (by decide) rfl (.map fun p _ => .childless rfl rfl)

theorem unwired_stats : Every Unwired none [Drawn.stats c] :=
  .box (by decide) rfl (.map fun item _ => unwired_leaf _ _ item)

theorem unwired_header (s : Spec) : Every Unwired none [Drawn.header s st] := by
  have hlinks : Every Unwired none (Drawn.links s st) := .map fun p _ => .childless rfl rfl
  exact .box (by decide) rfl (.cons (unwired_leaf _ _ _) (.box (by decide) rfl hlinks))

theorem unwired_notifications : Every Unwired none [notifications st] :=
  .box (by decide) rfl (.map fun n _ => .childless rfl rfl)

theorem controls_form :
    controls [Drawn.form st place c] = [(place, Drawn.form st place c)] := by
  have hfield (p : String × Nat) : Every Unwired none [Drawn.field st place p.1 p.2] :=
    .box (by decide) rfl (.cons (unwired_leaf _ _ _) (.childless rfl rfl))
  have hrows : Every Unwired none (Drawn.form st place c).children :=
    .append (.map fun p _ => hfield p) (.childless rfl rfl)
  have hform : wiredTo? (Drawn.form st place c) = some place := rfl
  rw [controls_wired hform, controls_unwired hrows]

theorem controls_list : controls [Drawn.list st place c] = [(place, Drawn.adder place)] := by
  let rows := node "UL" "list__items" ((Drawn.items st place c).map (Drawn.leaf "LI" "list__item"))
  have hrows : Every Unwired none [rows] :=
    .box (by decide) rfl (.map fun item _ => unwired_leaf _ _ item)
  have hadder : controls [Drawn.adder place] = [(place, Drawn.adder place)] := rfl
  have hlist : controls [Drawn.list st place c] = controls ([rows] ++ [Drawn.adder place]) :=
    controls_node rfl
  rw [hlist, controls_append, controls_unwired hrows, hadder]
  rfl

theorem controls_special :
    controls (Drawn.special st place c) =
      ((Drawn.control? st place c).map fun e => (place, e)).toList := by
  unfold Drawn.special Drawn.control?
  cases c.kind with
  | form => exact controls_form st place c
  | list => exact controls_list st place c
  | stats => exact controls_unwired (unwired_stats c)
  | hero | cta | custom | navigation | modal | note => rfl

theorem controls_component :
    controls [Drawn.component st place c] =
      ((Drawn.control? st place c).map fun e => (place, e)).toList := by
  have hrow := unwired_row (Drawn.rowActions c) (c.kind = .hero || c.kind = .cta)
  rw [Drawn.component]
  unfold View.node
  rw [controls_node rfl, controls_append, controls_append, controls_append,
    controls_unwired (unwired_said _ _ _), controls_unwired (unwired_said _ _ _),
    controls_unwired hrow, controls_special, List.append_nil]
  rfl

theorem controls_components (x : Screen) (number : Nat) :
    controls (Drawn.components st x number) = x.components.zipIdx.filterMap fun p =>
      (Drawn.control? st (number, p.2) p.1).map fun e => ((number, p.2), e) := by
  rw [controls_eq_flatMap, Drawn.components, List.flatMap_map, List.filterMap_eq_flatMap_toList]
  exact List.flatMap_congr fun p _ => controls_component st (number, p.2) p.1

theorem controls_page (s : Spec) (x : Screen) :
    controls (Drawn.page s st x) = controls (Drawn.components st x st.screen) := by
  have hgoal := unwired_said "P" "screen__goal" (some x.goal)
  have hrow := unwired_row x.primaryActions true
  have hmain : controls [node "MAIN" "main" [Drawn.screen st x st.screen]] =
      controls (Drawn.components st x st.screen) := by
    unfold Drawn.screen View.node
    rw [controls_node rfl, controls_node rfl, controls_append, controls_append, controls_append,
      controls_cons, controls_unwired (unwired_leaf _ _ _), controls_unwired hgoal,
      controls_unwired hrow, controls_unwired (unwired_said _ _ _), controls_node rfl]
    rfl
  rw [Drawn.page, controls_cons, controls_cons (View.node _ _ _), hmain,
    controls_unwired (unwired_header st s), controls_unwired (unwired_notifications st),
    List.nil_append, List.append_nil]

theorem mem_controls_page_iff {s : Spec} {x : Screen} {q : Place} {e : Element} :
    (q, e) ∈ controls (Drawn.page s st x) ↔
      q.1 = st.screen ∧ ∃ c, x.components[q.2]? = some c ∧ Drawn.control? st q c = some e := by
  rw [controls_page, controls_components, List.mem_filterMap]
  constructor
  · rintro ⟨p, hp, hcontrol⟩
    obtain ⟨e', he', heq⟩ := Option.map_eq_some_iff.mp hcontrol
    obtain ⟨rfl, rfl⟩ := Prod.mk.inj heq
    exact ⟨rfl, p.1, List.mem_zipIdx_iff_getElem?.mp hp, he'⟩
  · obtain ⟨i, j⟩ := q
    rintro ⟨hi, c, hc, hcontrol⟩
    obtain rfl : i = st.screen := hi
    refine ⟨(c, j), List.mem_zipIdx_iff_getElem?.mpr hc, ?_⟩
    rw [hcontrol]
    rfl

theorem nodup_controls_page (s : Spec) (x : Screen) :
    ((controls (Drawn.page s st x)).map Prod.fst).Nodup := by
  have hplaces : x.components.zipIdx.Pairwise fun p q => p.2 ≠ q.2 := by
    have hnodup : (x.components.zipIdx.map Prod.snd).Nodup := by
      rw [List.zipIdx_map_snd]
      exact List.nodup_range'
    exact List.pairwise_map.mp hnodup
  rw [controls_page, controls_components, List.Nodup, List.pairwise_map]
  refine hplaces.filterMap _ fun p q hne a ha b hb heq => ?_
  obtain ⟨e, -, rfl⟩ := Option.map_eq_some_iff.mp ha
  obtain ⟨e', -, rfl⟩ := Option.map_eq_some_iff.mp hb
  exact hne (Prod.mk.inj heq).2

end Drawn

theorem map_fst_controls_untyped (es : List Element) :
    (controls (untypedAll es)).map Prod.fst = (controls es).map Prod.fst := by
  rw [← map_untyped_controls, List.map_map]
  rfl

namespace Current

variable {s : Spec} {p : Page} {place : Place} {e : Element} {f : Element.Found}

theorem componentAt_eq (hscreen : p.state.screen = place.1) {x : Screen}
    (hx : s.keyScreens[p.state.screen]? = some x) :
    s.componentAt? place = x.components[place.2]? := by
  rw [Spec.componentAt?, ← hscreen, hx]
  rfl

theorem nodup_controls (h : Current s p) : ((controls p.content).map Prod.fst).Nodup := by
  obtain ⟨x, -, hcontent⟩ := h.exists_drawn
  rw [← map_fst_controls_untyped, hcontent, map_fst_controls_untyped]
  exact nodup_controls_page p.state s x

theorem of_mem_controls (h : Current s p) (hmem : (place, e) ∈ controls p.content) :
    p.state.screen = place.1 ∧ ∃ c g, s.componentAt? place = some c ∧
      Drawn.control? p.state place c = some g ∧ e.untyped = g.untyped := by
  obtain ⟨x, hx, hcontent⟩ := h.exists_drawn
  have hmem' := List.mem_map_of_mem (f := Prod.map id untyped) hmem
  rw [map_untyped_controls, hcontent, ← map_untyped_controls, List.mem_map] at hmem'
  obtain ⟨⟨q, g⟩, hg, heq⟩ := hmem'
  obtain ⟨rfl : q = place, huntyped⟩ := Prod.mk.inj heq
  obtain ⟨hscreen, c, hc, hcontrol⟩ := (mem_controls_page_iff p.state).mp hg
  rw [← componentAt_eq hscreen.symm hx] at hc
  exact ⟨hscreen.symm, c, g, hc, hcontrol, huntyped.symm⟩

end Current

end Page

end Mockup
