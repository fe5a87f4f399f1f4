import Mockup.Json.Reader.Value
import Mockup.Payload.Bullets
import Mockup.Payload.Screens

/-! From a payload to a specification. The payload says what it says in loosely shaped JSON; the
context fills the gaps. -/

namespace Mockup

structure Context where
  title : String := ""
  summary : String := ""
  goal : Option String := none
  focus : String := ""
  notes : Option String := none

namespace Context

def noteItems (ctx : Context) : List String := (ctx.notes.map Bullets.extract).getD []

end Context

namespace Payload

open Json

def noteItemLimit : Nat := 8

def screenNameLimit : Nat := 48

inductive Rejection where
  | unreadable (text : String) (fault : Fault)
  | notAnObject (kind : String)

namespace Rejection

def message : Rejection → String
  | .unreadable text fault => "input is not valid JSON: " ++ fault.message text.toList
  | .notAnObject kind => "expected a JSON object, found " ++ kind

end Rejection

def root (raw : Value) : Except Rejection Members :=
  match raw with
  | .object m => .ok m
  | .text s =>
    match Value.parse s with
    | .ok (.object m) => .ok m
    | .ok v => .error (.notAnObject v.kindName)
    | .error f => .error (.unreadable s f)
  | v => .error (.notAnObject v.kindName)

def unwrap (m : Members) : Members :=
  match (m.get? "prototype_spec").or (m.get? "prototypeSpec") with
  | some (.object inner) => inner
  | _ => m

def summary? (m : Members) : Option String :=
  match m.get? "summary" with
  | some (.list lines) => Text.filled? ("\n".intercalate (lines.filterMap stringText?))
  | some v => stringText? v
  | none => none

def title (ctx : Context) (m : Members) : String :=
  (((m.get? "title").bind stringText?).or (Text.filled? ctx.title)).getD Placeholder.title

def summary (ctx : Context) (m : Members) : String := (summary? m).getD (Text.trimmed ctx.summary)

def explicitGoal? (m : Members) : Option String := (m.get? "goal").bind scalarText?

def goal? (ctx : Context) (m : Members) : Option String :=
  (explicitGoal? m).or (ctx.goal.bind Text.filled?)

def successMetrics (m : Members) : List String :=
  match m.get? "success_metrics" with
  | some (.list vs) => vs.filterMap itemText?
  | _ => Placeholder.metrics

/-- What the made-up screen shows when the payload has no loose components: the items of the notes,
or the summary. -/
def standIn (ctx : Context) (m : Members) (goal : String) : Component :=
  match ctx.noteItems with
  | [] =>
    { kind := .custom, title := some (title ctx m),
      description := some ((Text.filled? (summary ctx m)).getD goal) }
  | item :: items =>
    { kind := .list, title := some "Highlights",
      sampleItems := some ((item :: items).take noteItemLimit) }

def madeUpScreen (ctx : Context) (m : Members) : Screen :=
  let goal :=
    ((((explicitGoal? m).or (ctx.goal.bind Text.filled?)).or (Text.filled? ctx.summary)).or
      (Text.filled? (summary ctx m))).getD Placeholder.goal
  let loose := ((firstList? m componentKeys).map componentsOf).getD []
  { name := ((Text.filled? ctx.focus).map (shorten screenNameLimit)).getD Placeholder.screenName
    goal
    components := if loose.isEmpty then [standIn ctx m goal] else loose }

def keyScreens (ctx : Context) (m : Members) : List Screen :=
  (screens? m).getD [madeUpScreen ctx m]

def metadata? (ctx : Context) (m : Members) : Option Members :=
  let own := (m.get? "metadata").bind Value.object?
  match ctx.noteItems with
  | [] => own
  | items => some ((own.getD []).set "assistant_metrics" (.texts items))

def specOf (ctx : Context) (m : Members) : Spec where
  title := title ctx m
  summary := summary ctx m
  goal := goal? ctx m
  successMetrics := some (successMetrics m)
  keyScreens := keyScreens ctx m
  userFlow := (m.get? "user_flow").bind textList?
  visualStyle := (m.get? "visual_style").bind scalarText?
  callToAction := (m.get? "call_to_action").bind scalarText?
  metadata := metadata? ctx m

def normalize (ctx : Context) (raw : Value) : Except Rejection Spec :=
  (root raw).map fun m => specOf ctx (rename .spec (unwrap m))

end Payload

end Mockup
