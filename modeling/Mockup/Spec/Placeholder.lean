import Mockup.Spec.Basic
import Mockup.Text.Decimal

/-! Texts that stand where a specification has nothing of its own to say. -/

namespace Mockup.Placeholder

def goal : String := "Help visitors complete the main task on this screen."

def screenName : String := "Prototype overview"

def title : String := "Untitled prototype"

def metrics : List String :=
  ["Visitors complete the primary flow without assistance",
   "Stakeholders can explain the value proposition after one walkthrough"]

def numberedName (place : Nat) : String := "Screen " ++ Text.natural (place + 1)

def component (name goal : String) : Component :=
  { kind := .custom, title := some name, description := some goal }

end Mockup.Placeholder
