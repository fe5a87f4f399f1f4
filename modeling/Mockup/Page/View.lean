import Mockup.Page.State

/-! What a page shows in a state. There is no view where a text is wanted of a value that has none,
or where a screen or a component is null. -/

namespace Mockup.Page

open Json

def quoted (label : Value) : String := "“" ++ (text? label).getD "" ++ "”"

namespace View

def node (tag className : String) (children : List Element) : Element :=
  .node { tag, className } children

def leaf? (tag className : String) (text : Option Value) : Option Element :=
  (ownText? text).map fun text => .node { tag, className, text } []

def said? (tag className : String) (v : Value) (key : String) : Option (List Element) :=
  match filled? v key with
  | none => some []
  | some x => (leaf? tag className (some x)).map fun e => [e]

def button (className type text : String) (onClick : Option Reaction) : Element :=
  .node { tag := "BUTTON", className, text, type, onClick } []

def buttonClass (primary : Bool) : String := if primary then "button button--primary" else "button"

def action? (label : Value) (primary : Bool) : Option Element :=
  (ownText? (some label)).map fun text =>
    button (buttonClass primary) "button" text (some (.act label))

def actions? (labels : List Value) (primaryFirst : Bool) : Option Element :=
  (labels.zipIdx.mapM fun p => action? p.1 (primaryFirst && p.2 = 0)).map (node "DIV" "actions")

def link? (s : State) (screen : Value) (number : Nat) : Option Element :=
  match screen with
  | .null => none
  | _ =>
    (ownText? (member? screen "name")).map fun text =>
      button (if number = s.screen then "nav-link nav-link--active" else "nav-link") "button" text
        (some (.go number))

def header? (data : Value) (s : State) : Option Element := do
  let title ← leaf? "DIV" "topbar__title" (some ((filled? data "title").getD (.text "Prototype")))
  let links ← (screensOf data).zipIdx.mapM fun p => link? s p.1 p.2
  some (node "HEADER" "topbar" [title, node "NAV" "topbar__nav" links])

def fieldsOf (component : Value) : List Value :=
  match listAt component "fields" with
  | [] => [.text "Name", .text "Email"]
  | fields => fields

def submitLabel (component : Value) : Value :=
  ((listAt component "actions").head?.filter isFilled).getD (.text "Submit")

def placeholder (field : Value) : String :=
  match field with
  | .null => ""
  | v => (text? v).getD ""

def field? (s : State) (place : Place) (field : Value) (number : Nat) : Option Element := do
  let label ← leaf? "SPAN" "form__label" (some field)
  let key ← text? field
  let input : Head :=
    { tag := "INPUT", className := "form__input", name := "field_" ++ Text.natural number
      placeholder := placeholder field
      value := (s.saved? place key).getD (.text "") }
  some (node "LABEL" "form__field" [label, .node input []])

def form? (s : State) (place : Place) (component : Value) : Option Element := do
  let fields := fieldsOf component
  let label := submitLabel component
  let rows ← fields.zipIdx.mapM fun p => field? s place p.1 p.2
  let text ← text? label
  let submission : Submission := ⟨place, fields, label, filled? component "title"⟩
  some (.node { tag := "FORM", className := "form", onSubmit := some submission }
    (rows ++ [button (buttonClass true) "submit" text none]))

def list? (s : State) (place : Place) (component : Value) : Option Element := do
  let items := listAt component "sample_items" ++ (s.added place).map .text
  let rows ← items.mapM fun item => leaf? "LI" "list__item" (some item)
  some (node "DIV" "list" [node "UL" "list__items" rows,
    button (buttonClass false) "button" "Add item" (some (.addItem place))])

def stats? (component : Value) : Option Element :=
  ((listAt component "sample_items").mapM fun item => leaf? "DIV" "stats__tile" (some item)).map
    (node "DIV" "stats")

def special? (s : State) (place : Place) (component : Value) (kind : String) :
    Option (List Element) :=
  if kind = "form" then (form? s place component).map fun e => [e]
  else if kind = "list" then (list? s place component).map fun e => [e]
  else if kind = "stats" then (stats? component).map fun e => [e]
  else some []

def row? (labels : List Value) (primaryFirst : Bool) : Option (List Element) :=
  if labels.isEmpty then some [] else (actions? labels primaryFirst).map fun e => [e]

def component? (s : State) (place : Place) (component : Value) : Option Element :=
  match component with
  | .null => none
  | _ => do
    let value := (filled? component "kind").getD (.text "custom")
    let suffix ← text? value
    let kind := value.text?.getD ""
    let title ← said? (if kind = "hero" then "H1" else "H3") "component__title" component "title"
    let description ← said? "P" "component__description" component "description"
    let special ← special? s place component kind
    let labels := listAt component "actions"
    let row ← row? (if kind = "form" then labels.drop 1 else labels) (kind = "hero" || kind = "cta")
    some (node "DIV" ("component component--" ++ suffix) (title ++ description ++ special ++ row))

def screen? (s : State) (screen : Value) (number : Nat) : Option Element := do
  let name ← leaf? "H2" "screen__name" (member? screen "name")
  let goal ← said? "P" "screen__goal" screen "goal"
  let row ← row? (listAt screen "primary_actions") true
  let notes ← said? "P" "screen__notes" screen "layout_notes"
  let components ← (listAt screen "components").zipIdx.mapM fun p => component? s (number, p.2) p.1
  some (node "SECTION" "screen"
    (name :: goal ++ row ++ notes ++ [node "DIV" "screen__components" components]))

def main? (data : Value) (s : State) : Option Element :=
  let body? :=
    match screensOf data with
    | [] =>
      leaf? "P" "screen__goal"
        (some ((filled? data "summary").getD (.text "Nothing to show yet.")))
    | screens => screens[s.screen]?.bind fun screen => screen? s screen s.screen
  body?.map fun body => node "MAIN" "main" [body]

def toast (n : Notification) : Element :=
  .node { tag := "DIV", className := "notification", text := n.message,
          onClick := some (.dismiss n.id) } []

def notifications (s : State) : Element := node "DIV" "notifications" (s.notifications.map toast)

end View

def view (data : Value) (s : State) : List Element × Bool :=
  match View.header? data s with
  | none => ([], false)
  | some header =>
    match View.main? data s with
    | none => ([header], false)
    | some main => ([header, main, View.notifications s], true)

end Mockup.Page
