import Mockup.Payload.Alias
import Mockup.Payload.Reading
import Mockup.Spec.Placeholder

/-! Screens and components of a payload, and the places of a payload where screens are looked
for. -/

namespace Mockup.Payload

open Json

def componentKeys : List String := ["components", "sections", "widgets", "panels"]

def noteTitleLimit : Nat := 60

def component? : Value → Option Component
  | .text s =>
    (Text.filled? s).map fun body =>
      { kind := .note, title := some (shorten noteTitleLimit body), description := some body }
  | .object raw =>
    let m := rename .component raw
    some {
      kind := (((m.get? "kind").bind Value.text?).bind Kind.parse?).getD .custom
      title := firstText? m ["title", "name", "heading", "label"]
      description := firstText? m ["description", "body", "text", "content", "summary"]
      fields := (m.get? "fields").bind textList?
      actions := ((m.get? "actions").bind textList?).getD []
      sampleItems := ["sample_items", "items"].findSome? fun key => (m.get? key).bind textList?
      dataset := (m.get? "dataset").bind rows? }
  | _ => none

def componentsOf (vs : List Value) : List Component := vs.filterMap component?

def orPlaceholder (cs : List Component) (name goal : String) : List Component :=
  if cs.isEmpty then [Placeholder.component name goal] else cs

/-- The screen that an entry describes. The entry's place, counted from zero, names a screen that
has no name of its own. -/
def screen? (place : Nat) : Value → Option Screen
  | .text s =>
    (Text.filled? s).map fun name =>
      { name
        goal := Placeholder.goal
        components := [Placeholder.component name Placeholder.goal] }
  | .object raw =>
    let m := rename .screen raw
    let name := (firstText? m ["name", "title", "slug", "heading"]).getD
      (Placeholder.numberedName place)
    let goal := (firstText? m ["goal", "purpose", "objective"]).getD Placeholder.goal
    let components := ((firstList? m componentKeys).map componentsOf).getD []
    some {
      name
      goal
      primaryActions :=
        (["primary_actions", "actions"].findSome? fun key => (m.get? key).bind textList?).getD []
      layoutNotes := firstText? m ["layout_notes", "layout"]
      components := orPlaceholder components name goal }
  | _ => none

def screensFrom (place : Nat) : List Value → List Screen
  | [] => []
  | v :: vs =>
    match screen? place v with
    | some s => s :: screensFrom (place + 1) vs
    | none => screensFrom (place + 1) vs

def listAt (m : Members) (key : String) : List Value := ((m.get? key).bind Value.list?).getD []

def objectAt (m : Members) (key : String) : List Value :=
  match m.get? key with
  | some (.object o) => [.object o]
  | _ => []

def isPageLike : Value → Bool
  | .object m => (firstList? m componentKeys).isSome
  | _ => false

/-- Where screens are looked for, best source first. -/
def screenSources (m : Members) : List (List Value) :=
  [listAt m "key_screens",
   listAt m "webpages",
   objectAt m "webpage",
   listAt m "pages",
   objectAt m "main_page" ++ listAt m "secondary_pages",
   (componentKeys.flatMap (listAt m)).filter isPageLike]

def screens? (m : Members) : Option (List Screen) :=
  (screenSources m).findSome? fun source =>
    match screensFrom 0 source with
    | [] => none
    | s :: ss => some (s :: ss)

end Mockup.Payload
