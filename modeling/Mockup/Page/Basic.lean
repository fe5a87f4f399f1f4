import Mockup.Bundle.Basic
import Mockup.Page.View
import Mockup.Text.LowerCase

/-! Pages and the events that change them. An event that stops half-way keeps what it changed
before; what was typed into the inputs stays until the page is shown anew. -/

namespace Mockup

open Json Page

structure Page where
  data : Value
  state : Page.State := {}
  /-- The notifications that wait to go by themselves, in the order in which they came. -/
  timers : List Nat := []
  reply : Option String := none
  content : List Element := []

namespace Page

def notificationTime : Nat := 4000

/-- Shows the page anew. Like every change of a page it says whether it came to its end. -/
def refresh (p : Page) : Page × Bool :=
  let (content, whole) := view p.data p.state
  ({ p with content }, whole)

def load (data : Value) : Page × Bool := refresh { data }

def ofSpec (s : Spec) : Page × Bool := load s.complete.toValue

def notify (p : Page) (message : String) : Page × Bool :=
  let state := p.state.note message
  refresh { p with state, timers := p.timers ++ [state.clock] }

def dismiss (p : Page) (id : Nat) : Page × Bool :=
  if p.state.has id then refresh { p with state := p.state.dismiss id } else (p, true)

def go (p : Page) (screen : Nat) : Page × Bool :=
  if screen < (screensOf p.data).length then
    refresh { p with state := { p.state with screen } }
  else (p, true)

/-- The first screen with a name that differs from the label in case only. Names other than texts
cannot be compared, and then there is no answer. -/
def screenNamed? (label : String) (number : Nat) : List Value → Option (Option Nat)
  | [] => some none
  | screen :: rest =>
    match filled? screen "name" with
    | none => screenNamed? label (number + 1) rest
    | some (.text name) =>
      if Text.lowerCase name = label then some (some number)
      else screenNamed? label (number + 1) rest
    | some _ => none

/-- An action opens the screen that it is named after, and is notified. -/
def act (p : Page) (label : Value) : Page × Bool :=
  match screenNamed? (Text.lowerCase ((text? label).getD "")) 0 (screensOf p.data) with
  | none => (p, false)
  | some target =>
    let screen := target.getD p.state.screen
    { p with state := { p.state with screen } }.notify (quoted label ++ " clicked")

def addItem (p : Page) (place : Place) : Page × Bool :=
  match p.reply.map trimmed with
  | none => (p, true)
  | some item =>
    if item = "" then (p, true)
    else { p with state := p.state.add place item }.notify ("Added “" ++ item ++ "”")

def react (p : Page) : Reaction → Page × Bool
  | .go screen => p.go screen
  | .act label => p.act label
  | .addItem place => p.addItem place
  | .dismiss id => p.dismiss id

def submit (p : Page) (s : Submission) (values : List Held) : Page × Bool :=
  let labels := s.fields.map fun f => (text? f).getD ""
  let title := (text? (s.title.getD (.text "form"))).getD ""
  { p with state := p.state.save s.place (labels.zip values) }.notify
    (quoted s.label ++ " clicked, saved " ++ title ++ " locally")

inductive Event where
  | click (label : String)
  | nav (number : Nat)
  | toast (number : Nat)
  | fill (number : Nat) (text : String)
  | prompt (reply : Option String)
  | timers

inductive Trouble where
  | noButton (label : String)
  | noLink (number : Nat)
  | noToast (number : Nat)
  | noInput (number : Nat)
  | stopped

namespace Trouble

def message? : Trouble → Option String
  | noButton label => some ("no button " ++ label)
  | noLink n => some ("no nav-link " ++ Text.natural n)
  | noToast n => some ("no notification " ++ Text.natural n)
  | noInput n => some ("no input " ++ Text.natural n)
  | stopped => none

end Trouble

abbrev Result := Except Trouble (Option (List Nat))

def conclude (r : Page × Bool) : Page × Result :=
  (r.1, if r.2 then .ok none else .error .stopped)

def press (p : Page) (e : Element) : Page × Result :=
  match e.head.onClick with
  | some r => conclude (p.react r)
  | none => (p, .ok none)

def pressAny (p : Page) (found : Option Element) (trouble : Trouble) : Page × Result :=
  match found with
  | some e => p.press e
  | none => (p, .error trouble)

def button? (p : Page) (label : String) : Option Element.Found :=
  (Element.foundAll none p.content).find? fun f =>
    f.element.isButton && f.element.content = label

def push (p : Page) (f : Element.Found) : Page × Result :=
  if f.element.head.type = "submit" then
    match f.form with
    | some form =>
      match form.head.onSubmit with
      | some s => conclude (p.submit s (Element.values [form]))
      | none => (p, .ok none)
    | none => (p, .error .stopped)
  else p.press f.element

def click (p : Page) (label : String) : Page × Result :=
  match p.button? label with
  | none => (p, .error (.noButton label))
  | some f => p.push f

def dismissAll (p : Page) : List Nat → Page × Bool
  | [] => (p, true)
  | id :: rest =>
    match p.dismiss id with
    | (p, true) => p.dismissAll rest
    | (p, false) => (p, false)

def runTimers (p : Page) : Page × Result :=
  match { p with timers := [] }.dismissAll p.timers with
  | (q, true) => (q, .ok (some (p.timers.map fun _ => notificationTime)))
  | (q, false) => (q, .error .stopped)

def step (p : Page) : Event → Page × Result
  | .click label => p.click label
  | .nav n => p.pressAny (Element.withClass "nav-link" p.content)[n]? (.noLink n)
  | .toast n => p.pressAny (Element.withClass "notification" p.content)[n]? (.noToast n)
  | .fill n text =>
    if n < (Element.inputs p.content).length then
      ({ p with content := (Element.fillAll (.text text) (some n) p.content).1 }, .ok none)
    else (p, .error (.noInput n))
  | .prompt reply => ({ p with reply }, .ok none)
  | .timers => p.runTimers

end Page

end Mockup
