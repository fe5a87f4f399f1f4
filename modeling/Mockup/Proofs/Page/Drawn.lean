import Mockup.Page.View
import Mockup.Proofs.Spec.Record

/-! The view of a specification. All that a page looks for in the value of a specification is a
text, texts or an object, and has a text where one is wanted. So every state has a view if its
screen is there, and the view can be drawn from the specification itself. -/

namespace Mockup.Page

open Json View

namespace Drawn

def leaf (tag className text : String) : Element := .node { tag, className, text } []

def said (tag className : String) (text : Option String) : List Element :=
  ((text.filter (· ≠ "")).map (leaf tag className)).toList

def action (label : String) (primary : Bool) : Element :=
  button (buttonClass primary) "button" label (some (.act (.text label)))

def actions (labels : List String) (primaryFirst : Bool) : Element :=
  node "DIV" "actions" (labels.zipIdx.map fun p => action p.1 (primaryFirst && p.2 = 0))

def row (labels : List String) (primaryFirst : Bool) : List Element :=
  if labels.isEmpty then [] else [actions labels primaryFirst]

def link (st : State) (x : Screen) (number : Nat) : Element :=
  button (if number = st.screen then "nav-link nav-link--active" else "nav-link") "button" x.name
    (some (.go number))

def links (s : Spec) (st : State) : List Element := s.keyScreens.zipIdx.map fun p => link st p.1 p.2

def header (s : Spec) (st : State) : Element :=
  node "HEADER" "topbar"
    [leaf "DIV" "topbar__title" (((some s.title).filter (· ≠ "")).getD "Prototype"),
      node "NAV" "topbar__nav" (links s st)]

def fields (c : Component) : List String :=
  match c.fields.getD [] with
  | [] => ["Name", "Email"]
  | fields => fields

def submitLabel (c : Component) : String := (c.actions.head?.filter (· ≠ "")).getD "Submit"

def field (st : State) (place : Place) (label : String) (number : Nat) : Element :=
  node "LABEL" "form__field"
    [leaf "SPAN" "form__label" label,
      .node
        { tag := "INPUT", className := "form__input", name := "field_" ++ Text.natural number
          placeholder := label, value := (st.saved? place label).getD (.text "") } []]

def submission (place : Place) (c : Component) : Submission where
  place
  fields := (fields c).map .text
  label := .text (submitLabel c)
  title := (c.title.filter (· ≠ "")).map .text

def form (st : State) (place : Place) (c : Component) : Element :=
  .node { tag := "FORM", className := "form", onSubmit := some (submission place c) }
    (((fields c).zipIdx.map fun p => field st place p.1 p.2) ++
      [button (buttonClass true) "submit" (submitLabel c) none])

def items (st : State) (place : Place) (c : Component) : List String :=
  c.sampleItems.getD [] ++ st.added place

def list (st : State) (place : Place) (c : Component) : Element :=
  node "DIV" "list"
    [node "UL" "list__items" ((items st place c).map (leaf "LI" "list__item")),
      button (buttonClass false) "button" "Add item" (some (.addItem place))]

def stats (c : Component) : Element :=
  node "DIV" "stats" ((c.sampleItems.getD []).map (leaf "DIV" "stats__tile"))

def special (st : State) (place : Place) (c : Component) : List Element :=
  match c.kind with
  | .form => [form st place c]
  | .list => [list st place c]
  | .stats => [stats c]
  | _ => []

/-- The actions of a component that stand in a row: a form is submitted by the first one. -/
def rowActions (c : Component) : List String :=
  match c.kind with
  | .form => c.actions.drop 1
  | _ => c.actions

def titleTag (k : Kind) : String := if k = .hero then "H1" else "H3"

def component (st : State) (place : Place) (c : Component) : Element :=
  node "DIV" ("component component--" ++ c.kind.name)
    (said (titleTag c.kind) "component__title" c.title ++
      said "P" "component__description" c.description ++ special st place c ++
      row (rowActions c) (c.kind = .hero || c.kind = .cta))

def components (st : State) (x : Screen) (number : Nat) : List Element :=
  x.components.zipIdx.map fun p => component st (number, p.2) p.1

def screen (st : State) (x : Screen) (number : Nat) : Element :=
  node "SECTION" "screen"
    (leaf "H2" "screen__name" x.name :: said "P" "screen__goal" (some x.goal) ++
      row x.primaryActions true ++ said "P" "screen__notes" x.layoutNotes ++
      [node "DIV" "screen__components" (components st x number)])

def page (s : Spec) (st : State) (x : Screen) : List Element :=
  [header s st, node "MAIN" "main" [screen st x st.screen], notifications st]

end Drawn

section Members

variable {v : Value} {key text : String} {x : Option String} {xs : List String}

theorem filled?_optional (h : member? v key = x.map .text) :
    filled? v key = (x.filter (· ≠ "")).map .text := by
  rw [filled?, h]
  cases x with
  | none => rfl
  | some t =>
    have hfilled : isFilled (.text t) = decide (t ≠ "") := rfl
    rw [Option.map_some, Option.filter_some, Option.filter_some, hfilled]
    split <;> rfl

theorem filled?_text (h : member? v key = some (.text text)) :
    filled? v key = ((some text).filter (· ≠ "")).map .text := filled?_optional h

theorem listAt_texts (h : member? v key = some (.texts xs)) : listAt v key = xs.map .text := by
  rw [listAt, h]
  rfl

theorem listAt_optional {x : Option (List String)} (h : member? v key = x.map .texts) :
    listAt v key = (x.getD []).map .text := by
  rw [listAt, h]
  cases x <;> rfl

theorem said?_optional (tag className : String) (h : member? v key = x.map .text) :
    said? tag className v key = some (Drawn.said tag className x) := by
  rw [said?, filled?_optional h, Drawn.said]
  cases x.filter (· ≠ "") <;> rfl

end Members

theorem mapM_zipIdx_map {α β γ : Type} {f : β → Nat → Option γ} {g : α → β} {k : α → Nat → γ}
    (h : ∀ x n, f (g x) n = some (k x n)) (xs : List α) (n : Nat) :
    ((xs.map g).zipIdx n).mapM (fun p => f p.1 p.2) =
      some ((xs.zipIdx n).map fun p => k p.1 p.2) := by
  induction xs generalizing n with
  | nil => rfl
  | cons x xs ih =>
    rw [List.map_cons, List.zipIdx_cons, List.mapM_cons, h, ih]
    rfl

theorem mapM_map {α β γ : Type} {f : β → Option γ} {g : α → β} {k : α → γ}
    (h : ∀ x, f (g x) = some (k x)) (xs : List α) : (xs.map g).mapM f = some (xs.map k) := by
  induction xs with
  | nil => rfl
  | cons x xs ih =>
    rw [List.map_cons, List.mapM_cons, h, ih]
    rfl

theorem map_zipIdx_fst {α β : Type} {f : α × Nat → β} {g : α → β} {xs : List α}
    (h : ∀ p ∈ xs.zipIdx, f p = g p.1) : xs.zipIdx.map f = xs.map g :=
  calc xs.zipIdx.map f
      = xs.zipIdx.map (g ∘ Prod.fst) := List.map_congr_left h
    _ = xs.map g := by rw [← List.map_map, List.zipIdx_map_fst]

theorem actions?_texts (labels : List String) (primaryFirst : Bool) :
    actions? (labels.map .text) primaryFirst = some (Drawn.actions labels primaryFirst) := by
  have hitems := mapM_zipIdx_map (f := fun v n => action? v (primaryFirst && n = 0))
    (g := Value.text) (k := fun label n => Drawn.action label (primaryFirst && n = 0))
    (fun _ _ => rfl) labels 0
  rw [actions?, hitems]
  rfl

theorem row?_texts (labels : List String) (primaryFirst : Bool) :
    row? (labels.map .text) primaryFirst = some (Drawn.row labels primaryFirst) := by
  rw [row?, Drawn.row, List.isEmpty_map, actions?_texts]
  split <;> rfl

theorem screensOf_toValue (s : Spec) :
    screensOf s.toValue = s.keyScreens.map Screen.record.toValue := by
  have hmember : member? s.toValue "key_screens" =
      some (.list (s.keyScreens.map Screen.record.toValue)) := s.members_spec.2.2.2.2.1
  rw [screensOf, listAt, hmember]
  rfl

theorem link?_toValue (st : State) (x : Screen) (number : Nat) :
    link? st (Screen.record.toValue x) number = some (Drawn.link st x number) := by
  have hname : member? (Screen.record.toValue x) "name" = some (.text x.name) := x.members_spec.1
  have hlink : link? st (Screen.record.toValue x) number =
      (ownText? (member? (Screen.record.toValue x) "name")).map fun text =>
        button (if number = st.screen then "nav-link nav-link--active" else "nav-link") "button"
          text (some (.go number)) := rfl
  rw [hlink, hname]
  rfl

theorem header?_toValue (s : Spec) (st : State) :
    header? s.toValue st = some (Drawn.header s st) := by
  have htitle : filled? s.toValue "title" = ((some s.title).filter (· ≠ "")).map .text :=
    filled?_text s.members_spec.1
  have hlinks := mapM_zipIdx_map (f := link? st) (link?_toValue st) s.keyScreens 0
  rw [header?, htitle, screensOf_toValue, hlinks, Drawn.header]
  cases (some s.title).filter (· ≠ "") <;> rfl

section Component

variable (st : State) (place : Place) (c : Component)

theorem fieldsOf_toValue :
    fieldsOf (Component.record.toValue c) = (Drawn.fields c).map .text := by
  have hfields : listAt (Component.record.toValue c) "fields" = (c.fields.getD []).map .text :=
    listAt_optional c.members_spec.2.2.2.1
  rw [fieldsOf, hfields, Drawn.fields]
  cases c.fields.getD [] <;> rfl

theorem listAt_actions : listAt (Component.record.toValue c) "actions" = c.actions.map .text :=
  listAt_texts c.members_spec.2.2.2.2.1

theorem listAt_sampleItems :
    listAt (Component.record.toValue c) "sample_items" = (c.sampleItems.getD []).map .text :=
  listAt_optional c.members_spec.2.2.2.2.2.1

theorem submitLabel_toValue :
    View.submitLabel (Component.record.toValue c) = .text (Drawn.submitLabel c) := by
  rw [View.submitLabel, listAt_actions, Drawn.submitLabel, List.head?_map]
  cases c.actions.head? with
  | none => rfl
  | some t =>
    have hfilled : isFilled (.text t) = decide (t ≠ "") := rfl
    rw [Option.map_some, Option.filter_some, Option.filter_some, hfilled]
    split <;> rfl

theorem form?_toValue :
    form? st place (Component.record.toValue c) = some (Drawn.form st place c) := by
  have hrows := mapM_zipIdx_map (f := field? st place) (g := Value.text)
    (k := Drawn.field st place) (fun _ _ => rfl) (Drawn.fields c) 0
  have htitle : filled? (Component.record.toValue c) "title" =
      (c.title.filter (· ≠ "")).map .text := filled?_optional c.members_spec.2.1
  rw [form?, fieldsOf_toValue, submitLabel_toValue, htitle, hrows]
  rfl

theorem list?_toValue :
    list? st place (Component.record.toValue c) = some (Drawn.list st place c) := by
  have hrows := mapM_map (f := fun item => leaf? "LI" "list__item" (some item)) (g := Value.text)
    (k := Drawn.leaf "LI" "list__item") (fun _ => rfl) (Drawn.items st place c)
  rw [list?, listAt_sampleItems, ← List.map_append]
  rw [Drawn.items] at hrows
  rw [hrows]
  rfl

theorem stats?_toValue : stats? (Component.record.toValue c) = some (Drawn.stats c) := by
  have hrows := mapM_map (f := fun item => leaf? "DIV" "stats__tile" (some item))
    (g := Value.text) (k := Drawn.leaf "DIV" "stats__tile") (fun _ => rfl) (c.sampleItems.getD [])
  rw [stats?, listAt_sampleItems, hrows]
  rfl

theorem special?_toValue :
    special? st place (Component.record.toValue c) c.kind.name =
      some (Drawn.special st place c) := by
  rw [special?, form?_toValue, list?_toValue, stats?_toValue, Drawn.special]
  cases c.kind <;> rfl

theorem filled?_kind :
    filled? (Component.record.toValue c) "kind" = some (.text c.kind.name) := by
  have hkind : member? (Component.record.toValue c) "kind" = some (.text c.kind.name) :=
    c.members_spec.1
  rw [filled?_text hkind]
  cases c.kind <;> rfl

theorem component?_toValue :
    View.component? st place (Component.record.toValue c) =
      some (Drawn.component st place c) := by
  have htitle := said?_optional (v := Component.record.toValue c) (Drawn.titleTag c.kind)
    "component__title" c.members_spec.2.1
  have hdescription := said?_optional (v := Component.record.toValue c) "P"
    "component__description" c.members_spec.2.2.1
  have htag : (if c.kind.name = "hero" then "H1" else "H3") = Drawn.titleTag c.kind := by
    cases c.kind <;> rfl
  have hlabels : (if c.kind.name = "form" then (c.actions.map Value.text).drop 1
      else c.actions.map Value.text) = (Drawn.rowActions c).map Value.text := by
    unfold Drawn.rowActions
    cases c.kind with
    | form => exact List.map_drop.symm
    | _ => rfl
  have hprimary : (c.kind.name = "hero" || c.kind.name = "cta") =
      (c.kind = .hero || c.kind = .cta : Bool) := by
    cases c.kind <;> rfl
  unfold View.component?
  split
  · next hnull => cases hnull
  · have hname : (Value.text c.kind.name).text?.getD "" = c.kind.name := rfl
    have htext : text? (.text c.kind.name) = some c.kind.name := by rw [text?]
    rw [filled?_kind, Option.getD_some]
    simp only [htext, hname, htag, htitle, hdescription, special?_toValue, listAt_actions, hlabels,
      hprimary, row?_texts]
    rfl

end Component

theorem screen?_toValue (st : State) (x : Screen) (number : Nat) :
    View.screen? st (Screen.record.toValue x) number = some (Drawn.screen st x number) := by
  obtain ⟨hname, hgoal, hactions, hnotes, hcomponents⟩ := x.members_spec
  have hmember : member? (Screen.record.toValue x) "name" = some (.text x.name) := hname
  have hgoal' := said?_optional (v := Screen.record.toValue x) (x := some x.goal) "P"
    "screen__goal" hgoal
  have hnotes' := said?_optional (v := Screen.record.toValue x) "P" "screen__notes" hnotes
  have hactions' := listAt_texts (v := Screen.record.toValue x) hactions
  have hlist : listAt (Screen.record.toValue x) "components" =
      x.components.map Component.record.toValue := by
    have hmember' : member? (Screen.record.toValue x) "components" =
        some (.list (x.components.map Component.record.toValue)) := hcomponents
    rw [listAt, hmember']
    rfl
  have hdrawn := mapM_zipIdx_map (f := fun v n => View.component? st (number, n) v)
    (g := Component.record.toValue) (k := fun c n => Drawn.component st (number, n) c)
    (fun c n => component?_toValue st (number, n) c) x.components 0
  rw [View.screen?, hmember, hgoal', hnotes', hactions', row?_texts, hlist, hdrawn]
  rfl

theorem view_toValue (s : Spec) (st : State) {x : Screen} (h : s.keyScreens[st.screen]? = some x) :
    view s.toValue st = (Drawn.page s st x, true) := by
  have hmain : main? s.toValue st = some (node "MAIN" "main" [Drawn.screen st x st.screen]) := by
    have hscreen : (screensOf s.toValue)[st.screen]? = some (Screen.record.toValue x) := by
      rw [screensOf_toValue, List.getElem?_map, h]
      rfl
    unfold main?
    dsimp only
    split
    · next hnil =>
      rw [hnil] at hscreen
      cases hscreen
    · rw [hscreen, Option.bind_some, screen?_toValue]
      rfl
  rw [view, header?_toValue, hmain]
  rfl

end Mockup.Page
