import Mockup.Json.Value

/-! Spellings of keys. A payload may write some keys in camel case or under another name; each level
of a payload has its own table of such aliases. -/

namespace Mockup.Payload

open Json

inductive Level where
  | spec
  | screen
  | component
deriving DecidableEq

namespace Level

def aliases : Level → List (String × String)
  | spec =>
    [("keyScreens", "key_screens"),
     ("userFlow", "user_flow"),
     ("callToAction", "call_to_action"),
     ("successMetrics", "success_metrics"),
     ("visualStyle", "visual_style"),
     ("mainPage", "main_page"),
     ("secondaryPages", "secondary_pages"),
     ("prototypeSpec", "prototype_spec")]
  | screen =>
    [("primaryActions", "primary_actions"),
     ("layoutNotes", "layout_notes")]
  | component =>
    [("primaryActions", "actions"),
     ("primary_actions", "actions"),
     ("sampleItems", "sample_items"),
     ("type", "kind")]

end Level

/-- Renames the members of `m`, adding them to `done`. A key that stands in `m` itself beats its
aliases, and the first of several aliases beats the others. -/
def renameInto (level : Level) (m : Members) : Members → Members → Members
  | [], done => done
  | (key, v) :: rest, done =>
    match level.aliases.lookup key with
    | some name =>
      if m.has name || done.has name then renameInto level m rest done
      else renameInto level m rest (done.set name v)
    | none => renameInto level m rest (done.set key v)

def rename (level : Level) (m : Members) : Members := renameInto level m m []

end Mockup.Payload
