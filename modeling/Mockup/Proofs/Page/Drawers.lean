import Mockup.Proofs.Json.Printed
import Mockup.Proofs.Lookup
import Mockup.Proofs.Page.Change

/-! What a page keeps of its components: the items added to a list and what was last saved of a
form. A page keeps all of it in two maps under keys made of two numbers, and no two components share
a key. -/

namespace Mockup.Page

namespace Change

def item? (place : Place) : Change → Option String
  | .add q item => if q = place then some item else none
  | _ => none

def record? (place : Place) : Change → Option Saved
  | .save q saved => if q = place then some saved else none
  | _ => none

end Change

open Change

namespace State

variable (st : State) (place : Place)

theorem forms_apply (c : Change) :
    (st.apply c).forms.lookup place =
      ((c.record? place).map List.reverse).or (st.forms.lookup place) := by
  cases c with
  | save q saved =>
    have hput := lookup_put q saved.reverse st.forms place
    have happly : (st.apply (.save q saved)).forms =
        (q, saved.reverse) :: st.forms.filter fun f => f.1 ≠ q := rfl
    rw [happly, hput, Change.record?]
    by_cases hsame : place = q
    · rw [if_pos hsame, if_pos hsame.symm]
      rfl
    · rw [if_neg hsame, if_neg (Ne.symm hsame)]
      rfl
  | enter screen | add q item | note message | dismiss id => rfl

/-- A form has what was saved of it last. -/
theorem forms_applyAll (cs : List Change) :
    (st.applyAll cs).forms.lookup place =
      ((cs.filterMap (record? place)).getLast?.map List.reverse).or (st.forms.lookup place) := by
  induction cs using List.reverseRecOn with
  | nil => rfl
  | append_singleton cs c ih =>
    have hlast : (st.applyAll (cs ++ [c])).forms = ((st.applyAll cs).apply c).forms := by
      rw [applyAll_append]
      rfl
    rw [hlast, forms_apply, ih, List.filterMap_append, List.filterMap_cons, List.filterMap_nil]
    cases c.record? place with
    | none => rw [List.append_nil]; rfl
    | some saved => rw [List.getLast?_concat]; rfl

end State

def key (place : Place) : String := Text.natural place.1 ++ ":" ++ Text.natural place.2

/-- The maps of a page, whose keys are texts. -/
structure Drawers where
  forms : List (String × Saved) := []
  additions : List (String × List String) := []

namespace Drawers

def apply (d : Drawers) : Change → Drawers
  | .save place saved =>
    { d with forms := (key place, saved.reverse) :: d.forms.filter fun f => f.1 ≠ key place }
  | .add place item =>
    { d with
      additions := (key place, (d.additions.lookup (key place)).getD [] ++ [item]) ::
        d.additions.filter fun a => a.1 ≠ key place }
  | _ => d

def applyAll (d : Drawers) (cs : List Change) : Drawers := cs.foldl apply d

end Drawers

end Mockup.Page
