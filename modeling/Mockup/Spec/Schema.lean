import Mockup.Json.Schema
import Mockup.Spec.Record

/-! The canonical schema of specifications, and what makes a specification invalid. -/

namespace Mockup

open Json

namespace Spec

def strings : Schema := .list (.text 0) 0

def componentSchema : Schema :=
  .object
    [("actions", strings),
     ("dataset", .list (.mapping (.text 0)) 0),
     ("description", .text 0),
     ("fields", strings),
     ("kind", .choice (Kind.all.map Kind.name)),
     ("sample_items", strings),
     ("title", .text 0)]
    ["kind", "actions"]

def screenSchema : Schema :=
  .object
    [("components", .list componentSchema 1),
     ("goal", .text 0),
     ("layout_notes", .text 0),
     ("name", .text 1),
     ("primary_actions", strings)]
    ["name", "goal", "primary_actions", "components"]

def schema : Schema :=
  .object
    [("call_to_action", .text 0),
     ("goal", .text 0),
     ("key_screens", .list screenSchema 1),
     ("metadata", .object [] []),
     ("success_metrics", strings),
     ("summary", .text 0),
     ("title", .text 1),
     ("user_flow", strings),
     ("visual_style", .text 0)]
    ["title", "summary", "key_screens"]

end Spec

inductive SpecError where
  | emptyTitle
  | noScreens
  | unnamedScreen (index : Nat)
  | componentlessScreen (name : String)
  | schema (violations : List Violation)

namespace SpecError

def message : SpecError → String
  | .emptyTitle => "specification title is empty"
  | .noScreens => "specification has no key screens"
  | .unnamedScreen index => "screen #" ++ Text.natural index ++ " has an empty name"
  | .componentlessScreen name => "screen '" ++ name ++ "' has no components"
  | .schema violations =>
    "specification does not match the canonical schema: " ++
      ", ".intercalate (violations.map Violation.message)

end SpecError

namespace Spec

def checkValue (v : Value) : Except SpecError Unit :=
  match schema.violations v with
  | [] => .ok ()
  | vs => .error (.schema vs)

def checkScreens (index : Nat) : List Screen → Except SpecError Unit
  | [] => .ok ()
  | s :: rest =>
    if Text.isBlankText s.name then .error (.unnamedScreen index)
    else if s.components.isEmpty then .error (.componentlessScreen s.name)
    else checkScreens (index + 1) rest

def validate (s : Spec) : Except SpecError Unit :=
  if Text.isBlankText s.title then .error .emptyTitle
  else if s.keyScreens.isEmpty then .error .noScreens
  else match checkScreens 0 s.keyScreens with
    | .error e => .error e
    | .ok () => checkValue s.toValue

end Spec

end Mockup
