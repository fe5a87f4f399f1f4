import Mockup.Page.Data
import Mockup.Page.Element

/-! The state of a page: which screen is open, what was submitted and added, and what is
notified. -/

namespace Mockup.Page

open Json

structure Notification where
  id : Nat
  message : String
deriving DecidableEq

abbrev Saved := List (String × Held)

structure State where
  screen : Nat := 0
  forms : List (Place × Saved) := []
  additions : List (Place × List String) := []
  notifications : List Notification := []
  clock : Nat := 0

namespace State

def notificationLimit : Nat := 3

def unsavable : String := "__proto__"

def saved? (s : State) (place : Place) (label : String) : Option Held :=
  (s.forms.lookup place).bind fun saved =>
    if label = unsavable then some .object else saved.lookup label

/-- Saves a form; of two values under one label the later one stays. -/
def save (s : State) (place : Place) (saved : Saved) : State :=
  { s with forms := (place, saved.reverse) :: s.forms.filter fun f => f.1 ≠ place }

def added (s : State) (place : Place) : List String := (s.additions.lookup place).getD []

def add (s : State) (place : Place) (item : String) : State :=
  { s with
    additions := (place, s.added place ++ [item]) :: s.additions.filter fun a => a.1 ≠ place }

/-- Puts a notification before the others, of which the oldest may go. -/
def note (s : State) (message : String) : State :=
  { s with
    notifications := (⟨s.clock + 1, message⟩ :: s.notifications).take notificationLimit
    clock := s.clock + 1 }

def dismiss (s : State) (id : Nat) : State :=
  { s with notifications := s.notifications.filter fun n => n.id ≠ id }

def has (s : State) (id : Nat) : Bool := s.notifications.any fun n => n.id = id

end State

def screensOf (data : Value) : List Value := listAt data "key_screens"

end Mockup.Page
