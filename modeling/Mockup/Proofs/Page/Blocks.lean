import Mockup.Proofs.Bundle.Sections
import Mockup.Proofs.Page.Parts

/-! The components that a page shows, read off its elements as they are read off the outline. -/

namespace Mockup

/-- What a page shows of a component: a list can be added to, and a form that has no action can be
submitted all the same. -/
def Component.Rendering.live (c : Component.Rendering) : Component.Rendering :=
  { c with
    buttons :=
      if c.kind = "list" then "Add item" :: c.buttons
      else if c.kind = "form" && c.buttons.isEmpty then ["Submit"]
      else c.buttons }

/-- The texts that both renderings show of a component are not empty where they are present. -/
structure Component.Worded (c : Component) : Prop where
  title : c.title ≠ some ""
  description : c.description ≠ some ""
  actions : "" ∉ c.actions

namespace Page

open View Element

def kindOf (className : String) : String :=
  String.ofList (className.toList.drop "component component--".toList.length)

def buttonTexts (es : List Element) : List String := ((all es).filter isButton).map Element.content

/-- What an element shows of a component. -/
def renderingOf (e : Element) : Component.Rendering where
  kind := kindOf e.head.className
  titles := (withClass "component__title" e.children).map Element.content
  descriptions := (withClass "component__description" e.children).map Element.content
  buttons := buttonTexts e.children

def componentsOf (es : List Element) : List Component.Rendering :=
  (withClass "component" es).map renderingOf

theorem content_leaf (tag className text : String) :
    (Drawn.leaf tag className text).content = text := by
  rw [Drawn.leaf, Element.content, Element.contents, String.append_empty]

section Buttons

/-- The buttons in elements, without the forms they are in. -/
def buttonsIn (es : List Element) : List Element := (all es).filter isButton

theorem map_element_buttons (form : Option Element) (es : List Element) :
    (buttons form es).map Found.element = buttonsIn es := by
  rw [buttonsIn, ← map_element_foundAll form es, List.filter_map]
  rfl

theorem buttonsIn_append (es fs : List Element) :
    buttonsIn (es ++ fs) = buttonsIn es ++ buttonsIn fs := by
  rw [buttonsIn, all_append, List.filter_append]
  rfl

theorem buttonsIn_cons (e : Element) (es : List Element) :
    buttonsIn (e :: es) = buttonsIn [e] ++ buttonsIn es := buttonsIn_append [e] es

theorem buttonsIn_idle {form : Option Element} {es : List Element} (h : Every Idle form es) :
    buttonsIn es = [] := by
  have hall := h.of_mem_all (P := fun e => isButton e = false)
  exact List.filter_eq_nil_iff.mpr fun e he => by rw [hall e he]; exact Bool.false_ne_true

theorem buttonsIn_node {h : Head} (htag : h.tag ≠ "BUTTON") (es : List Element) :
    buttonsIn [.node h es] = buttonsIn es := by
  have hnot : ¬ isButton (.node h es) = true := by
    unfold isButton
    rw [Bool.and_eq_true, decide_eq_true_eq]
    exact fun hbutton => htag hbutton.1
  rw [buttonsIn, all_cons, all_nil, List.append_nil, List.filter_cons_of_neg hnot]
  rfl

theorem buttonsIn_box {tag : String} (htag : tag ≠ "BUTTON") (className : String)
    (es : List Element) : buttonsIn [node tag className es] = buttonsIn es :=
  buttonsIn_node (h := { tag, className }) htag es

theorem idle_leaf {tag : String} (htag : tag ≠ "BUTTON") (className text : String) :
    Every Idle none [Drawn.leaf tag className text] := by
  refine .childless rfl ?_
  have hnot : decide (tag = "BUTTON") = false := decide_eq_false htag
  exact (congrArg (· && _) hnot).trans (Bool.false_and _)

theorem idle_said {tag : String} (htag : tag ≠ "BUTTON") (className : String)
    (text : Option String) : Every Idle none (Drawn.said tag className text) := by
  unfold Drawn.said
  cases text.filter (· ≠ "") with
  | none => exact .nil
  | some t => exact idle_leaf htag className t

theorem isButton_button (primary : Bool) (type text : String) (onClick : Option Reaction) :
    isButton (button (buttonClass primary) type text onClick) = true := by
  have hclass : Text.occursIn "nav-link".toList (buttonClass primary).toList = false := by
    cases primary <;> decide
  have htag : (button (buttonClass primary) type text onClick).head.tag = "BUTTON" := rfl
  have hhead : (button (buttonClass primary) type text onClick).head.className =
      buttonClass primary := rfl
  unfold isButton
  rw [htag, hhead, hclass]
  rfl

theorem buttonsIn_button (primary : Bool) (type text : String) (onClick : Option Reaction) :
    buttonsIn [button (buttonClass primary) type text onClick] =
      [button (buttonClass primary) type text onClick] := by
  rw [buttonsIn, all_of_leaves (List.forall_mem_singleton.mpr rfl),
    List.filter_cons_of_pos (isButton_button primary type text onClick)]
  rfl

theorem buttonsIn_map {α : Type} {g : α → Element} {k : α → List Element}
    (h : ∀ x, buttonsIn [g x] = k x) (xs : List α) : buttonsIn (xs.map g) = xs.flatMap k := by
  induction xs with
  | nil => rfl
  | cons x xs ih => rw [List.map_cons, buttonsIn_cons, h, ih, List.flatMap_cons]

theorem buttonsIn_row (labels : List String) (primaryFirst : Bool) :
    buttonsIn (Drawn.row labels primaryFirst) =
      labels.zipIdx.map fun p => Drawn.action p.1 (primaryFirst && p.2 = 0) := by
  unfold Drawn.row
  split
  · next hnil => rw [List.isEmpty_iff.mp hnil]; rfl
  · have hitems := buttonsIn_map
      (k := fun p : String × Nat => [Drawn.action p.1 (primaryFirst && p.2 = 0)])
      (fun p => buttonsIn_button (primaryFirst && p.2 = 0) "button" p.1
        (some (.act (.text p.1)))) labels.zipIdx
    unfold Drawn.actions
    rw [buttonsIn_box (by decide)]
    exact hitems.trans (List.flatMap_pure_eq_map _ _)

theorem buttonsIn_form (st : State) (place : Place) (c : Component) :
    buttonsIn [Drawn.form st place c] =
      [button (buttonClass true) "submit" (Drawn.submitLabel c) none] := by
  let rows := (Drawn.fields c).zipIdx.map fun p => Drawn.field st place p.1 p.2
  have hrows : Every Idle none rows := .map fun p _ =>
    .box (by decide) rfl (.cons (idle_leaf (by decide) _ _) (.childless rfl rfl))
  have hform := buttonsIn_node
    (h := { tag := "FORM", className := "form", onSubmit := some (Drawn.submission place c) })
    (by simp) (rows ++ [button (buttonClass true) "submit" (Drawn.submitLabel c) none])
  rw [Drawn.form, hform, buttonsIn_append, buttonsIn_idle hrows, buttonsIn_button]
  rfl

theorem buttonsIn_list (st : State) (place : Place) (c : Component) :
    buttonsIn [Drawn.list st place c] =
      [button (buttonClass false) "button" "Add item" (some (.addItem place))] := by
  have hrows : Every Idle none ((Drawn.items st place c).map (Drawn.leaf "LI" "list__item")) :=
    .map fun item _ => idle_leaf (by decide) _ item
  rw [Drawn.list, buttonsIn_box (by decide), buttonsIn_cons, buttonsIn_box (by decide),
    buttonsIn_idle hrows, buttonsIn_button]
  rfl

theorem buttonsIn_stats (c : Component) : buttonsIn [Drawn.stats c] = [] := by
  have hrows : Every Idle none ((c.sampleItems.getD []).map (Drawn.leaf "DIV" "stats__tile")) :=
    .map fun item _ => idle_leaf (by decide) _ item
  rw [Drawn.stats, buttonsIn_box (by decide), buttonsIn_idle hrows]

theorem buttonTexts_eq (es : List Element) :
    buttonTexts es = (buttonsIn es).map Element.content := rfl

theorem content_button (className type text : String) (onClick : Option Reaction) :
    (button className type text onClick).content = text := by
  rw [button, Element.content, Element.contents, String.append_empty]

theorem map_content_row (labels : List String) (primaryFirst : Bool) :
    (buttonsIn (Drawn.row labels primaryFirst)).map Element.content = labels := by
  rw [buttonsIn_row, List.map_map]
  calc labels.zipIdx.map (Element.content ∘ fun p => Drawn.action p.1 (primaryFirst && p.2 = 0))
      = labels.map id := map_zipIdx_fst fun p _ => content_button _ _ p.1 _
    _ = labels := List.map_id labels

end Buttons

section WithClass

variable {name className : String}

theorem withClass_said (hbears : bears name className = true) (tag : String)
    (text : Option String) :
    withClass name (Drawn.said tag className text) = Drawn.said tag className text := by
  unfold Drawn.said
  cases text.filter (· ≠ "") with
  | none => rfl
  | some t =>
    exact withClass_leaves (List.forall_mem_singleton.mpr rfl)
      (List.forall_mem_singleton.mpr hbears)

theorem withClass_said_other (hbears : bears name className = false) (tag : String)
    (text : Option String) : withClass name (Drawn.said tag className text) = [] := by
  unfold Drawn.said
  cases text.filter (· ≠ "") with
  | none => rfl
  | some t => exact withClass_leaf hbears tag t

theorem withClass_bearing {h : Head} (hbears : bears name h.className = true)
    (es : List Element) : withClass name [.node h es] = .node h es :: withClass name es := by
  have hclass : hasClass name (.node h es) = true := hbears
  rw [withClass, all_cons, all_nil, List.append_nil, List.filter_cons_of_pos hclass]
  rfl

theorem withClass_map {α : Type} {g : α → Element} (h : ∀ x, withClass name [g x] = [g x])
    (xs : List α) : withClass name (xs.map g) = xs.map g := by
  induction xs with
  | nil => rfl
  | cons x xs ih =>
    rw [List.map_cons, withClass_cons, h, ih]
    rfl

theorem map_content_said (tag className : String) {text : Option String} (h : text ≠ some "") :
    (Drawn.said tag className text).map Element.content = text.toList := by
  unfold Drawn.said
  cases text with
  | none => rfl
  | some t =>
    have hne : t ≠ "" := fun heq => h (congrArg some heq)
    rw [Option.filter_some, if_pos (decide_eq_true hne)]
    exact congrArg (fun t => [t]) (content_leaf tag className t)

end WithClass

section Component

variable (st : State) (place : Place) (c : Component)

def widgets : List Element :=
  Drawn.special st place c ++ Drawn.row (Drawn.rowActions c) (c.kind = .hero || c.kind = .cta)

theorem component_eq :
    Drawn.component st place c = node "DIV" ("component component--" ++ c.kind.name)
      (Drawn.said (Drawn.titleTag c.kind) "component__title" c.title ++
        (Drawn.said "P" "component__description" c.description ++ widgets st place c)) := by
  rw [Drawn.component, widgets, List.append_assoc, List.append_assoc]

theorem withClass_widgets {name : String}
    (hname : widgetClasses.all (fun className => !bears name className) = true) :
    withClass name (widgets st place c) = [] := by
  have hspecial : Every (Among widgetClasses) none (Drawn.special st place c) :=
    Among.every_special st place c
  have hrow : Every (Among widgetClasses) none
      (Drawn.row (Drawn.rowActions c) (c.kind = .hero || c.kind = .cta)) :=
    Among.every_row _ _
  exact withClass_among (hspecial.append hrow) hname

variable {c}

theorem buttonTexts_widgets (h : c.Worded) :
    buttonTexts (widgets st place c) = c.rendering.live.buttons := by
  have hlive : c.rendering.live.buttons =
      if c.kind.name = "list" then "Add item" :: c.actions
      else if c.kind.name = "form" && c.actions.isEmpty then ["Submit"]
      else c.actions := rfl
  rw [buttonTexts_eq, widgets, buttonsIn_append, List.map_append, map_content_row, hlive]
  unfold Drawn.special Drawn.rowActions
  cases hkind : c.kind with
  | form =>
    -- the first action is on the button that submits, and the others stand in the row
    have hsubmit : Drawn.submitLabel c :: c.actions.drop 1 =
        if c.actions.isEmpty then ["Submit"] else c.actions := by
      unfold Drawn.submitLabel
      cases hactions : c.actions with
      | nil => rfl
      | cons a actions =>
        have hne : a ≠ "" := fun heq => h.actions (by rw [hactions, heq]; exact List.mem_cons_self)
        rw [List.head?_cons, Option.filter_some, if_pos (decide_eq_true hne)]
        rfl
    have hbutton := content_button (buttonClass true) "submit" (Drawn.submitLabel c) none
    dsimp only
    rw [buttonsIn_form, List.map_singleton, hbutton]
    exact hsubmit
  | list =>
    have hbutton := content_button (buttonClass false) "button" "Add item" (some (.addItem place))
    dsimp only
    rw [buttonsIn_list, List.map_singleton, hbutton]
    rfl
  | stats =>
    dsimp only
    rw [buttonsIn_stats]
    rfl
  | hero | cta | custom | navigation | modal | note => rfl

theorem kindOf_component (k : Kind) : kindOf ("component component--" ++ k.name) = k.name := by
  rw [kindOf, String.toList_append, List.drop_left, String.ofList_toList]

theorem renderingOf_component (h : c.Worded) :
    renderingOf (Drawn.component st place c) = c.rendering.live := by
  let es := Drawn.said (Drawn.titleTag c.kind) "component__title" c.title ++
    (Drawn.said "P" "component__description" c.description ++ widgets st place c)
  have htitles : (withClass "component__title" es).map Element.content = c.title.toList := by
    rw [withClass_append, withClass_append, withClass_said (by decide),
      withClass_said_other (by decide), withClass_widgets st place c (by decide),
      List.append_nil, List.append_nil, map_content_said _ _ h.title]
  have hdescriptions : (withClass "component__description" es).map Element.content =
      c.description.toList := by
    rw [withClass_append, withClass_append, withClass_said_other (by decide),
      withClass_said (by decide), withClass_widgets st place c (by decide),
      List.append_nil, List.nil_append, map_content_said _ _ h.description]
  have hbuttons : buttonTexts es = c.rendering.live.buttons := by
    have htag : Drawn.titleTag c.kind ≠ "BUTTON" := by cases c.kind <;> decide
    rw [buttonTexts_eq, buttonsIn_append, buttonsIn_append, buttonsIn_idle (idle_said htag _ _),
      buttonsIn_idle (idle_said (by decide) _ _), List.nil_append, List.nil_append]
    exact buttonTexts_widgets st place h
  have hread : renderingOf (node "DIV" ("component component--" ++ c.kind.name) es) =
      ⟨kindOf ("component component--" ++ c.kind.name),
        (withClass "component__title" es).map Element.content,
        (withClass "component__description" es).map Element.content, buttonTexts es⟩ := rfl
  rw [component_eq, hread, kindOf_component, htitles, hdescriptions, hbuttons]
  rfl

variable (c)

theorem withClass_component :
    withClass "component" [Drawn.component st place c] = [Drawn.component st place c] := by
  have hbears : bears "component" ("component component--" ++ c.kind.name) = true := by
    cases c.kind <;> decide
  have hinside : withClass "component"
      (Drawn.said (Drawn.titleTag c.kind) "component__title" c.title ++
        (Drawn.said "P" "component__description" c.description ++ widgets st place c)) = [] := by
    rw [withClass_append, withClass_append, withClass_said_other (by decide),
      withClass_said_other (by decide), withClass_widgets st place c (by decide)]
    rfl
  have hnode := withClass_bearing
    (h := { tag := "DIV", className := "component component--" ++ c.kind.name }) hbears
    (Drawn.said (Drawn.titleTag c.kind) "component__title" c.title ++
      (Drawn.said "P" "component__description" c.description ++ widgets st place c))
  rw [hinside] at hnode
  rw [component_eq]
  exact hnode

end Component

theorem withClass_components (st : State) (x : Screen) (number : Nat) :
    withClass "component" (Drawn.components st x number) = Drawn.components st x number := by
  have hcomponent (p : Component × Nat) := withClass_component st (number, p.2) p.1
  unfold Drawn.components
  exact withClass_map hcomponent x.components.zipIdx

theorem withClass_component_page (s : Spec) (st : State) (x : Screen) :
    withClass "component" (Drawn.page s st x) = Drawn.components st x st.screen := by
  have hmain : withClass "component" [node "MAIN" "main" [Drawn.screen st x st.screen]] =
      Drawn.components st x st.screen := by
    have hwidgets : Every (Among widgetClasses) none (Drawn.row x.primaryActions true) :=
      Among.every_row _ _
    have hrow : withClass "component" (Drawn.row x.primaryActions true) = [] :=
      withClass_among hwidgets (by decide)
    unfold Drawn.screen
    rw [withClass_box (by decide), withClass_box (by decide), withClass_append, withClass_append,
      withClass_append, withClass_cons, withClass_leaf (by decide),
      withClass_said_other (by decide), hrow, withClass_said_other (by decide),
      withClass_box (by decide)]
    exact withClass_components st x st.screen
  rw [withClass_page, hmain, withClass_header s st (by decide),
    withClass_links s st (by decide) (by decide), withClass_notifications st (by decide),
    withClass_toasts st (by decide), List.nil_append, List.append_nil]

theorem componentsOf_page (s : Spec) (st : State) {x : Screen} (h : ∀ c ∈ x.components, c.Worded) :
    componentsOf (Drawn.page s st x) =
      x.components.map fun c => c.rendering.live := by
  rw [componentsOf, withClass_component_page, Drawn.components, List.map_map]
  have hread : ∀ p ∈ x.components.zipIdx,
      renderingOf (Drawn.component st (st.screen, p.2) p.1) = p.1.rendering.live := fun p hp =>
    renderingOf_component st _ (h p.1 (List.fst_mem_of_mem_zipIdx hp))
  exact map_zipIdx_fst hread

def Element.acts? (e : Element) : Option Json.Value :=
  match e.head.onClick with
  | some (.act label) => some label
  | _ => none

section Actions

variable (st : State)

theorem acts_row (labels : List String) (primaryFirst : Bool) :
    (buttonsIn (Drawn.row labels primaryFirst)).filterMap acts? = labels.map .text := by
  have hact (p : String × Nat) :
      acts? (Drawn.action p.1 (primaryFirst && p.2 = 0)) = some (.text p.1) := rfl
  rw [buttonsIn_row, List.filterMap_map]
  calc labels.zipIdx.filterMap (acts? ∘ fun p => Drawn.action p.1 (primaryFirst && p.2 = 0))
      = labels.zipIdx.map fun p => Json.Value.text p.1 :=
        (List.filterMap_congr fun p _ => hact p).trans (congrFun List.filterMap_eq_map' _)
    _ = labels.map .text := map_zipIdx_fst fun _ _ => rfl

theorem acts_special (place : Place) (c : Component) :
    (buttonsIn (Drawn.special st place c)).filterMap acts? = [] := by
  unfold Drawn.special
  cases c.kind with
  | form => exact congrArg (List.filterMap acts?) (buttonsIn_form st place c)
  | list => exact congrArg (List.filterMap acts?) (buttonsIn_list st place c)
  | stats => exact congrArg (List.filterMap acts?) (buttonsIn_stats c)
  | hero | cta | custom | navigation | modal | note => rfl

theorem acts_component (place : Place) (c : Component) :
    (buttonsIn [Drawn.component st place c]).filterMap acts? =
      (Drawn.rowActions c).map .text := by
  have htitle : Drawn.titleTag c.kind ≠ "BUTTON" := by cases c.kind <;> decide
  rw [Drawn.component, buttonsIn_box (by decide), buttonsIn_append, buttonsIn_append,
    buttonsIn_append, buttonsIn_idle (idle_said htitle _ _),
    buttonsIn_idle (idle_said (by decide) _ _), List.filterMap_append, List.filterMap_append,
    acts_special, acts_row]
  rfl

theorem acts_components (x : Screen) (number : Nat) :
    (buttonsIn (Drawn.components st x number)).filterMap acts? =
      (x.components.flatMap Drawn.rowActions).map .text := by
  have hcomponents := buttonsIn_map (g := fun p => Drawn.component st (number, p.2) p.1)
    (fun _ => rfl) x.components.zipIdx
  have hacts := map_zipIdx_fst (g := fun c => (Drawn.rowActions c).map Json.Value.text)
    fun p (_ : p ∈ x.components.zipIdx) => acts_component st (number, p.2) p.1
  rw [Drawn.components, hcomponents, List.filterMap_flatMap, List.flatMap_def, hacts,
    ← List.flatMap_def, List.map_flatMap]

theorem acts_page (s : Spec) (x : Screen) :
    (buttonsIn (Drawn.page s st x)).filterMap acts? =
      (x.primaryActions ++ x.components.flatMap Drawn.rowActions).map .text := by
  have hname : Every Idle none [Drawn.leaf "H2" "screen__name" x.name] :=
    idle_leaf (by decide) _ _
  have hgoal : Every Idle none (Drawn.said "P" "screen__goal" (some x.goal)) :=
    idle_said (by decide) _ _
  have hnotes : Every Idle none (Drawn.said "P" "screen__notes" x.layoutNotes) :=
    idle_said (by decide) _ _
  rw [Drawn.page, buttonsIn_cons, buttonsIn_cons (View.node _ _ _),
    buttonsIn_idle (idle_header s st), buttonsIn_idle (idle_notifications st),
    buttonsIn_box (by decide), Drawn.screen, buttonsIn_box (by decide), buttonsIn_append,
    buttonsIn_append, buttonsIn_append, buttonsIn_idle (hname.cons hgoal), buttonsIn_idle hnotes,
    buttonsIn_box (by decide), List.nil_append, List.nil_append, List.append_nil, List.append_nil,
    List.filterMap_append, acts_row, acts_components, List.map_append]

end Actions

end Page

end Mockup
