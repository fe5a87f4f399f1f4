import Mockup.Bundle.Markup
import Mockup.Bundle.Script
import Mockup.Bundle.Slug
import Mockup.Bundle.Stylesheet
import Mockup.Spec.Placeholder

/-! Bundles: the files that show a mock-up, and how a specification becomes one. -/

namespace Mockup

namespace Spec

def completeScreen (place : Nat) (s : Screen) : Screen :=
  let name := if Text.isBlankText s.name then Placeholder.numberedName place else s.name
  { s with
    name
    components :=
      if s.components.isEmpty then [Placeholder.component name s.goal] else s.components }

def completeScreens (place : Nat) : List Screen → List Screen
  | [] => []
  | s :: rest => completeScreen place s :: completeScreens (place + 1) rest

def complete (s : Spec) : Spec :=
  { s with
    title := if Text.isBlankText s.title then Placeholder.title else s.title
    keyScreens :=
      completeScreens 0
        (if s.keyScreens.isEmpty then
          [{ name := Placeholder.screenName, goal := s.goal.getD Placeholder.goal }]
        else s.keyScreens) }

end Spec

structure Bundle where
  markup : String
  stylesheet : String
  script : String
  slug : String
deriving DecidableEq

namespace Bundle

def record : Json.Record Bundle where
  name := "Bundle"
  blank := ⟨"", "", "", ""⟩
  fields := [
    .required "markup" .text .text Bundle.markup (fun v b => { b with markup := v }),
    .required "stylesheet" .text .text Bundle.stylesheet (fun v b => { b with stylesheet := v }),
    .required "script" .text .text Bundle.script (fun v b => { b with script := v }),
    .required "slug" .text .text Bundle.slug (fun v b => { b with slug := v })]

def markupFile : String := "index.html"

def stylesheetFile : String := "styles.css"

def scriptFile : String := "app.js"

def files (b : Bundle) : List (String × String) :=
  [(markupFile, b.markup), (stylesheetFile, b.stylesheet), (scriptFile, b.script)]

/-- Compiles a specification; `spare` is the slug for titles that leave none. -/
def compile (spare : String) (s : Spec) : Bundle :=
  let full := s.complete
  { markup := Markup.render full
    stylesheet := Stylesheet.text
    script := Script.render full
    slug := Slug.ofTitle spare full.title }

end Bundle

end Mockup
