import Mockup.Proofs.Page.Drawn
import Mockup.Proofs.Page.Element

/-! What is found in the view of a specification: the links and the notifications are found by their
classes, which nothing else has, and every other button does something. -/

namespace Mockup.Page

open Json View

namespace Element

def Every (P : Found → Prop) (form : Option Element) (es : List Element) : Prop :=
  ∀ f ∈ foundAll form es, P f

namespace Every

variable {P Q : Found → Prop} {form : Option Element} {es fs : List Element} {h : Head}

theorem nil : Every P form [] := nofun

theorem append (hes : Every P form es) (hfs : Every P form fs) : Every P form (es ++ fs) := by
  intro f hf
  rw [foundAll_append, List.mem_append] at hf
  exact hf.elim (hes f) (hfs f)

theorem cons {e : Element} (he : Every P form [e]) (hes : Every P form es) :
    Every P form (e :: es) := he.append hes

theorem map {α : Type} {g : α → Element} {xs : List α} (h : ∀ x ∈ xs, Every P form [g x]) :
    Every P form (xs.map g) := by
  induction xs with
  | nil => exact nil
  | cons x xs ih =>
    obtain ⟨hx, hxs⟩ := List.forall_mem_cons.mp h
    exact hx.cons (ih hxs)

theorem node (hnode : P ⟨.node h es, form⟩)
    (hes : Every P (if h.tag = "FORM" then some (.node h es) else form) es) :
    Every P form [.node h es] := by
  intro f hf
  rw [foundAll, foundAll, List.append_nil, found, List.mem_cons] at hf
  rcases hf with rfl | hf
  · exact hnode
  · exact hes f hf

theorem box {tag className : String} (htag : tag ≠ "FORM")
    (hnode : P ⟨View.node tag className es, form⟩) (hes : Every P form es) :
    Every P form [View.node tag className es] := by
  refine node (h := { tag, className }) hnode ?_
  rw [if_neg htag]
  exact hes

theorem childless {e : Element} (hchildren : e.children = []) (he : P ⟨e, form⟩) :
    Every P form [e] := by
  obtain ⟨h, es⟩ := e
  obtain rfl : es = [] := hchildren
  exact node he nil

theorem mono (hes : Every P form es) (himp : ∀ f, P f → Q f) : Every Q form es :=
  fun f hf => himp f (hes f hf)

theorem of_mem_all {P : Element → Prop} (hes : Every (fun f => P f.element) form es) :
    ∀ e ∈ all es, P e := by
  intro e he
  rw [← map_element_foundAll form, List.mem_map] at he
  obtain ⟨f, hf, rfl⟩ := he
  exact hes f hf

end Every

def bears (name className : String) : Bool :=
  Text.occursIn (" " ++ name ++ " ").toList (" " ++ className ++ " ").toList

theorem hasClass_eq (name : String) (e : Element) :
    hasClass name e = bears name e.head.className := rfl

theorem withClass_append (name : String) (es fs : List Element) :
    withClass name (es ++ fs) = withClass name es ++ withClass name fs := by
  rw [withClass, all_append, List.filter_append]
  rfl

theorem withClass_cons (name : String) (e : Element) (es : List Element) :
    withClass name (e :: es) = withClass name [e] ++ withClass name es :=
  withClass_append name [e] es

theorem withClass_node {name : String} {h : Head} (hbears : bears name h.className = false)
    (cs : List Element) : withClass name [.node h cs] = withClass name cs := by
  rw [withClass, all_cons, all_nil, List.append_nil, List.filter_cons, hasClass_eq]
  exact if_neg (by rw [Bool.not_eq_true]; exact hbears)

theorem all_of_leaves {es : List Element} (h : ∀ e ∈ es, e.children = []) : all es = es := by
  induction es with
  | nil => rfl
  | cons e es ih =>
    obtain ⟨he, hes⟩ := List.forall_mem_cons.mp h
    rw [all_cons, he, all_nil, List.nil_append, ih hes]

theorem withClass_leaves {name : String} {es : List Element} (hleaf : ∀ e ∈ es, e.children = [])
    (hbears : ∀ e ∈ es, hasClass name e = true) : withClass name es = es := by
  rw [withClass, all_of_leaves hleaf]
  exact List.filter_eq_self.mpr hbears

theorem withClass_eq_nil {name : String} {es : List Element}
    (h : ∀ e ∈ all es, hasClass name e = false) : withClass name es = [] := by
  refine List.filter_eq_nil_iff.mpr fun e he => ?_
  rw [h e he]
  exact Bool.false_ne_true

end Element

open Element

/-- A button that does something wherever it is, or submits the form it is in. -/
inductive Wired : Element.Found → Prop
  | action (className label : String) (form : Option Element) :
    Wired ⟨button className "button" label (some (.act (.text label))), form⟩
  | adding (className : String) (place : Place) (form : Option Element) :
    Wired ⟨button className "button" "Add item" (some (.addItem place)), form⟩
  | submitting (className label : String) {form : Element} {s : Submission}
    (h : form.head.onSubmit = some s) : Wired ⟨button className "submit" label none, some form⟩

def widgetClasses : List String :=
  ["actions", "button", "button button--primary", "form", "form__field", "form__label",
    "form__input", "list", "list__items", "list__item", "stats", "stats__tile"]

def bodyClasses : List String :=
  widgetClasses ++ ["main", "screen", "screen__name", "screen__goal", "screen__notes",
    "screen__components", "component__title", "component__description"] ++
    Kind.all.map fun k => "component component--" ++ k.name

structure Among (classes : List String) (f : Element.Found) : Prop where
  className : f.element.head.className ∈ classes
  wired : f.element.isButton = true → Wired f

namespace Among

variable {tag className : String} {form : Option Element} {es : List Element}
  {classes : List String}

theorem mono {classes' : List String} {f : Element.Found} (h : Among classes f)
    (hsub : ∀ c ∈ classes, c ∈ classes') : Among classes' f := ⟨hsub _ h.className, h.wired⟩

theorem of_tag {h : Head} (htag : h.tag ≠ "BUTTON") (hclass : h.className ∈ classes) :
    Among classes ⟨.node h es, form⟩ where
  className := hclass
  wired hbutton := by
    unfold isButton at hbutton
    rw [Bool.and_eq_true, decide_eq_true_eq] at hbutton
    exact absurd hbutton.1 htag

theorem every_node (htag : tag ≠ "BUTTON" ∧ tag ≠ "FORM") (hclass : className ∈ classes)
    (hes : Every (Among classes) form es) :
    Every (Among classes) form [node tag className es] :=
  .box htag.2 (of_tag (h := { tag, className }) htag.1 hclass) hes

theorem every_leaf (htag : tag ≠ "BUTTON") (hclass : className ∈ classes) (text : String) :
    Every (Among classes) form [Drawn.leaf tag className text] :=
  .childless rfl (of_tag (h := { tag, className, text }) htag hclass)

theorem every_said (htag : tag ≠ "BUTTON") (hclass : className ∈ classes)
    (text : Option String) : Every (Among classes) form (Drawn.said tag className text) := by
  unfold Drawn.said
  cases text.filter (· ≠ "") with
  | none => exact .nil
  | some t => exact every_leaf htag hclass t

theorem every_button {type text : String} {onClick : Option Reaction} (primary : Bool)
    (hwired : Wired ⟨button (buttonClass primary) type text onClick, form⟩) :
    Every (Among widgetClasses) form [button (buttonClass primary) type text onClick] := by
  have hclass : buttonClass primary ∈ widgetClasses := by cases primary <;> decide
  exact .childless rfl ⟨hclass, fun _ => hwired⟩

theorem every_row (labels : List String) (primaryFirst : Bool) :
    Every (Among widgetClasses) form (Drawn.row labels primaryFirst) := by
  unfold Drawn.row
  split
  · exact .nil
  · refine every_node (by decide) (by decide) (.map fun p _ => ?_)
    exact every_button _ (.action _ p.1 form)

theorem every_field (st : State) (place : Place) (label : String) (number : Nat) :
    Every (Among widgetClasses) form [Drawn.field st place label number] := by
  have hinput : Every (Among widgetClasses) form
      [.node
        { tag := "INPUT", className := "form__input", name := "field_" ++ Text.natural number
          placeholder := label, value := (st.saved? place label).getD (.text "") } []] := by
    have htag : "INPUT" ≠ "BUTTON" := by decide
    have hclass : "form__input" ∈ widgetClasses := by decide
    exact .childless rfl (of_tag htag hclass)
  exact every_node (by decide) (by decide) (.cons (every_leaf (by decide) (by decide) _) hinput)

theorem every_form (st : State) (place : Place) (c : Component) :
    Every (Among widgetClasses) form [Drawn.form st place c] := by
  have htag : "FORM" ≠ "BUTTON" := by decide
  have hclass : "form" ∈ widgetClasses := by decide
  refine .node (of_tag htag hclass) ?_
  rw [if_pos rfl]
  refine .append (.map fun p _ => every_field st place _ _) ?_
  exact every_button true (.submitting _ _ rfl)

theorem every_list (st : State) (place : Place) (c : Component) :
    Every (Among widgetClasses) form [Drawn.list st place c] := by
  refine every_node (by decide) (by decide) (.cons ?_ (every_button false (.adding _ _ _)))
  exact every_node (by decide) (by decide) (.map fun item _ => every_leaf (by decide) (by decide) _)

theorem every_stats (c : Component) : Every (Among widgetClasses) form [Drawn.stats c] :=
  every_node (by decide) (by decide) (.map fun item _ => every_leaf (by decide) (by decide) _)

theorem every_special (st : State) (place : Place) (c : Component) :
    Every (Among widgetClasses) form (Drawn.special st place c) := by
  unfold Drawn.special
  split
  · exact every_form st place c
  · exact every_list st place c
  · exact every_stats c
  · exact .nil

theorem mem_bodyClasses {c : String} (hc : c ∈ widgetClasses) : c ∈ bodyClasses :=
  List.mem_append_left _ (List.mem_append_left _ hc)

theorem every_component (st : State) (place : Place) (c : Component) :
    Every (Among bodyClasses) form [Drawn.component st place c] := by
  have hclass : "component component--" ++ c.kind.name ∈ bodyClasses :=
    List.mem_append_right _ (List.mem_map.mpr ⟨c.kind, by cases c.kind <;> decide, rfl⟩)
  have htitle : Drawn.titleTag c.kind ≠ "BUTTON" := by cases c.kind <;> decide
  refine every_node (by decide) hclass (.append (.append (.append ?_ ?_) ?_) ?_)
  · exact every_said htitle (by decide) c.title
  · exact every_said (by decide) (by decide) c.description
  · exact (every_special st place c).mono fun f hf => hf.mono fun _ => mem_bodyClasses
  · exact (every_row _ _).mono fun f hf => hf.mono fun _ => mem_bodyClasses

theorem every_main (st : State) (x : Screen) :
    Every (Among bodyClasses) none [node "MAIN" "main" [Drawn.screen st x st.screen]] := by
  have hcomponents : Every (Among bodyClasses) none (Drawn.components st x st.screen) :=
    .map fun p _ => every_component st (st.screen, p.2) p.1
  have hgoal : Every (Among bodyClasses) none (Drawn.said "P" "screen__goal" (some x.goal)) :=
    every_said (by decide) (by decide) _
  have hrow : Every (Among bodyClasses) none (Drawn.row x.primaryActions true) :=
    (every_row _ _).mono fun f hf => hf.mono fun _ => mem_bodyClasses
  have hnotes : Every (Among bodyClasses) none (Drawn.said "P" "screen__notes" x.layoutNotes) :=
    every_said (by decide) (by decide) _
  refine every_node (by decide) (by decide) (every_node (by decide) (by decide) ?_)
  refine .append (.append (.append (.cons (every_leaf (by decide) (by decide) _) hgoal) hrow)
    hnotes) ?_
  exact every_node (by decide) (by decide) hcomponents

end Among

section Page

variable (s : Spec) (st : State) (x : Screen)

theorem withClass_among {name : String} {classes : List String} {form : Option Element}
    {es : List Element} (hes : Every (Among classes) form es)
    (hname : classes.all (fun className => !bears name className) = true) :
    withClass name es = [] := by
  have hclass := (hes.mono fun f hf => hf.className).of_mem_all
    (P := fun e => e.head.className ∈ classes)
  refine withClass_eq_nil fun e he => ?_
  have hnot := List.all_eq_true.mp hname _ (hclass e he)
  rwa [Bool.not_eq_true'] at hnot

theorem leaf_of_mem_links {e : Element} (he : e ∈ Drawn.links s st) :
    e.children = [] ∧ e.head.tag = "BUTTON" ∧
      (e.head.className = "nav-link nav-link--active" ∨ e.head.className = "nav-link") := by
  obtain ⟨p, -, rfl⟩ := List.mem_map.mp he
  have hclass : (Drawn.link st p.1 p.2).head.className =
      if p.2 = st.screen then "nav-link nav-link--active" else "nav-link" := rfl
  refine ⟨rfl, rfl, ?_⟩
  rw [hclass]
  split
  · exact .inl rfl
  · exact .inr rfl

theorem leaf_of_mem_toasts {e : Element} (he : e ∈ st.notifications.map toast) :
    e.children = [] ∧ e.head.tag = "DIV" ∧ e.head.className = "notification" := by
  obtain ⟨n, -, rfl⟩ := List.mem_map.mp he
  exact ⟨rfl, rfl, rfl⟩

theorem withClass_box {name tag className : String} (h : bears name className = false)
    (es : List Element) : withClass name [View.node tag className es] = withClass name es :=
  withClass_node (h := { tag, className }) h es

theorem withClass_leaf {name className : String} (h : bears name className = false)
    (tag text : String) : withClass name [Drawn.leaf tag className text] = [] :=
  withClass_node (h := { tag, className, text }) h []

theorem withClass_header {name : String}
    (hname : bears name "topbar" = false ∧ bears name "topbar__title" = false ∧
      bears name "topbar__nav" = false) :
    withClass name [Drawn.header s st] = withClass name (Drawn.links s st) := by
  obtain ⟨hheader, htitle, hnav⟩ := hname
  unfold Drawn.header
  rw [withClass_box hheader, withClass_cons, withClass_box hnav, withClass_leaf htitle,
    List.nil_append]

theorem withClass_links {name : String} (hlink : bears name "nav-link" = false)
    (hactive : bears name "nav-link nav-link--active" = false) :
    withClass name (Drawn.links s st) = [] := by
  refine withClass_eq_nil fun e he => ?_
  rw [all_of_leaves fun e he => (leaf_of_mem_links s st he).1] at he
  rw [hasClass_eq]
  rcases (leaf_of_mem_links s st he).2.2 with hclass | hclass <;> rw [hclass]
  · exact hactive
  · exact hlink

theorem withClass_toasts {name : String} (htoast : bears name "notification" = false) :
    withClass name (st.notifications.map toast) = [] := by
  refine withClass_eq_nil fun e he => ?_
  rw [all_of_leaves fun e he => (leaf_of_mem_toasts st he).1] at he
  rw [hasClass_eq, (leaf_of_mem_toasts st he).2.2]
  exact htoast

theorem withClass_notifications {name : String} (hname : bears name "notifications" = false) :
    withClass name [notifications st] = withClass name (st.notifications.map toast) :=
  withClass_box hname _

theorem withClass_page (name : String) :
    withClass name (Drawn.page s st x) = withClass name [Drawn.header s st] ++
      (withClass name [node "MAIN" "main" [Drawn.screen st x st.screen]] ++
        withClass name [notifications st]) := by
  rw [Drawn.page, withClass_cons, withClass_cons _ (View.node _ _ _)]

theorem withClass_link : withClass "nav-link" (Drawn.page s st x) = Drawn.links s st := by
  have hlinks : withClass "nav-link" (Drawn.links s st) = Drawn.links s st := by
    refine withClass_leaves (fun e he => (leaf_of_mem_links s st he).1) fun e he => ?_
    rw [hasClass_eq]
    rcases (leaf_of_mem_links s st he).2.2 with hclass | hclass <;> rw [hclass] <;> decide
  rw [withClass_page, withClass_among (Among.every_main st x) (by decide),
    withClass_header s st (by decide), withClass_notifications st (by decide), hlinks,
    withClass_toasts st (by decide), List.nil_append, List.append_nil]

theorem withClass_toast :
    withClass "notification" (Drawn.page s st x) = st.notifications.map toast := by
  have htoasts : withClass "notification" (st.notifications.map toast) =
      st.notifications.map toast := by
    refine withClass_leaves (fun e he => (leaf_of_mem_toasts st he).1) fun e he => ?_
    rw [hasClass_eq, (leaf_of_mem_toasts st he).2.2]
    decide
  rw [withClass_page, withClass_among (Among.every_main st x) (by decide),
    withClass_header s st (by decide), withClass_notifications st (by decide), htoasts,
    withClass_links s st (by decide) (by decide), List.nil_append, List.nil_append]

abbrev Idle (f : Element.Found) : Prop := f.element.isButton = false

theorem idle_header : Every Idle none [Drawn.header s st] := by
  have hlinks : Every Idle none (Drawn.links s st) := by
    refine .map fun p hp => ?_
    obtain ⟨hchildren, htag, hclass⟩ := leaf_of_mem_links s st (List.mem_map_of_mem hp)
    refine .childless hchildren ?_
    unfold Idle isButton
    rcases hclass with hclass | hclass <;> rw [htag, hclass] <;> decide
  exact .box (by decide) rfl (.cons (.childless rfl rfl) (.box (by decide) rfl hlinks))

theorem idle_notifications : Every Idle none [notifications st] :=
  .box (by decide) rfl (.map fun n _ => .childless rfl rfl)

theorem wired_of_mem_buttons {f : Element.Found} (hf : f ∈ buttons none (Drawn.page s st x)) :
    Wired f := by
  rw [buttons, List.mem_filter] at hf
  obtain ⟨hfound, hbutton⟩ := hf
  have hpage : Every (fun f => f.element.isButton = true → Wired f) none (Drawn.page s st x) := by
    have hnone {f : Element.Found} (hf : Idle f) : f.element.isButton = true → Wired f :=
      fun hbutton => absurd (hf.symm.trans hbutton) Bool.false_ne_true
    exact .cons ((idle_header s st).mono fun f => hnone) <|
      .cons ((Among.every_main st x).mono fun f hf => hf.wired)
        ((idle_notifications st).mono fun f => hnone)
  exact hpage f hfound hbutton

end Page

end Mockup.Page
