import Mockup.Page.Basic
import Mockup.Proofs.Page.Change
import Mockup.Proofs.Page.Element

/-! What can happen to a page, and what it changes if the page is the one of a specification. -/

namespace Mockup.Page

open Json Element

/-- What can happen to a page: an event, a click on any of the buttons outside the navigation, or
the end of a timer that is pending. -/
inductive Deed where
  | event (e : Event)
  | push (number : Nat)
  | timer (id : Nat)

def fire (p : Page) (id : Nat) : Page × Bool :=
  if id ∈ p.timers then { p with timers := p.timers.erase id }.dismiss id else (p, true)

def perform (p : Page) : Deed → Page × Result
  | .event e => p.step e
  | .push n =>
    match (buttons none p.content)[n]? with
    | some f => p.push f
    | none => (p, .ok none)
  | .timer id => conclude (p.fire id)

def namedScreen? (s : Spec) (label : String) : Option Nat :=
  s.keyScreens.findIdx? fun x => Text.lowerCase x.name = Text.lowerCase label

def Reaction.changes (s : Spec) (p : Page) : Reaction → List Change
  | .go screen => if screen < s.keyScreens.length then [.enter screen] else []
  | .act label =>
    ((namedScreen? s ((text? label).getD "")).map Change.enter).toList ++
      [.note (quoted label ++ " clicked")]
  | .addItem place =>
    match p.reply.map trimmed with
    | none => []
    | some item =>
      if item = "" then [] else [.add place item, .note ("Added “" ++ item ++ "”")]
  | .dismiss id => [.dismiss id]

def Submission.changes (s : Submission) (values : List Held) : List Change :=
  [.save s.place ((s.fields.map fun f => (text? f).getD "").zip values),
    .note (quoted s.label ++ " clicked, saved " ++
      (text? (s.title.getD (.text "form"))).getD "" ++ " locally")]

def clickChanges (s : Spec) (p : Page) (f : Element.Found) : List Change :=
  if f.element.head.type = "submit" then
    match f.form with
    | none => []
    | some form =>
      match form.head.onSubmit with
      | none => []
      | some submission => submission.changes (values [form])
  else
    match f.element.head.onClick with
    | none => []
    | some reaction => reaction.changes s p

section Changes

variable (s : Spec) (p : Page)

theorem changes_act (label : String) :
    (Reaction.act (.text label)).changes s p =
      ((namedScreen? s label).map Change.enter).toList ++
        [.note (quoted (.text label) ++ " clicked")] := by
  have hlabel : (text? (.text label)).getD "" = label := by rw [text?]; rfl
  rw [Reaction.changes, hlabel]

variable {f : Element.Found} {r : Reaction}

theorem clickChanges_of_onClick (htype : f.element.head.type ≠ "submit")
    (hclick : f.element.head.onClick = some r) : clickChanges s p f = r.changes s p := by
  rw [clickChanges, if_neg htype, hclick]

end Changes

namespace Deed

def clicked? (p : Page) : Deed → Option Element.Found
  | event (.click label) => p.button? label
  | event (.nav n) => (withClass "nav-link" p.content)[n]?.map fun e => ⟨e, none⟩
  | event (.toast n) => (withClass "notification" p.content)[n]?.map fun e => ⟨e, none⟩
  | push n => (buttons none p.content)[n]?
  | _ => none

def changes (s : Spec) (p : Page) : Deed → List Change
  | event .timers => p.timers.map .dismiss
  | timer id => if id ∈ p.timers then [.dismiss id] else []
  | d => ((d.clicked? p).map (clickChanges s p)).getD []

def timersLeft (p : Page) : Deed → List Nat
  | event .timers => []
  | timer id => p.timers.erase id
  | _ => p.timers

end Deed

end Mockup.Page
