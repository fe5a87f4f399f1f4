import Mockup.Json.Value
import Mockup.Text.Blank
import Mockup.Text.LowerCase

/-! Specifications of clickable mock-ups: screens made of components. -/

namespace Mockup

inductive Kind where
  | hero
  | form
  | list
  | cta
  | stats
  | custom
  | navigation
  | modal
  | note
deriving DecidableEq, Repr

namespace Kind

def all : List Kind := [hero, form, list, cta, stats, custom, navigation, modal, note]

def name : Kind → String
  | hero => "hero"
  | form => "form"
  | list => "list"
  | cta => "cta"
  | stats => "stats"
  | custom => "custom"
  | navigation => "navigation"
  | modal => "modal"
  | note => "note"

def parse? (raw : String) : Option Kind :=
  let wanted := Text.lowerCase (Text.trimmed raw)
  all.find? fun k => k.name = wanted

end Kind

/-- A block of a screen. The fields label the inputs of a form; the sample items are the rows of a
list or the tiles of statistics. -/
structure Component where
  kind : Kind
  title : Option String := none
  description : Option String := none
  fields : Option (List String) := none
  actions : List String := []
  sampleItems : Option (List String) := none
  dataset : Option (List (List (String × String))) := none

structure Screen where
  name : String
  goal : String
  primaryActions : List String := []
  layoutNotes : Option String := none
  components : List Component := []

structure Spec where
  title : String
  summary : String
  goal : Option String := none
  successMetrics : Option (List String) := none
  keyScreens : List Screen
  userFlow : Option (List String) := none
  visualStyle : Option String := none
  callToAction : Option String := none
  metadata : Option Json.Members := none

namespace Spec

def isFallback (s : Spec) : Bool :=
  match s.metadata.bind fun m => m.get? "fallback" with
  | some (.bool b) => b
  | _ => false

end Spec

end Mockup
