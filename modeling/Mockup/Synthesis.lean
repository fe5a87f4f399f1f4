import Mockup.Project
import Mockup.Spec.Placeholder

/-! A specification from the facts of a project alone, for when no model gives a better one. -/

namespace Mockup.Synthesis

open Json

def clean (x : Option String) : Option String := x.bind Text.filled?

def welcome (title goal metric : String) : Screen where
  name := "Welcome"
  goal := "Explain why " ++ title ++ " matters"
  primaryActions := ["Get started"]
  layoutNotes := some "Hero on top, proof points below"
  components := [
    { kind := .hero, title := some title, description := some goal, actions := ["Get started"] },
    { kind := .stats, title := some "North star", sampleItems := some [metric] }]

def phaseNote (phase : String) : Component :=
  { kind := .note, title := some "Phase",
    description := some ("Scoped for the " ++ phase ++ " phase.") }

def focusScreen (focus : Option String) (goals : List String) (phase : Option String) : Screen :=
  let name := focus.getD "Key workflow"
  let items :=
    match goals with
    | [] => ["Capture the main need", "Show the first useful result"]
    | goals => goals
  { name
    goal := "Walk through " ++ Text.lowerCase name
    primaryActions := ["Continue"]
    components :=
      { kind := .list, title := some "What this covers", sampleItems := some items } ::
        (phase.map phaseNote).toList }

def interaction (title : String) (focus : Option String) : Screen where
  name := "Try it"
  goal := "Let visitors try " ++ title ++ " hands-on"
  primaryActions := ["Submit"]
  layoutNotes := some "Form on the left, results on the right"
  components := [
    { kind := .form, title := some ("Describe " ++ focus.getD "your request"),
      fields := some ["Name", "Details"], actions := ["Submit"] },
    { kind := .list, title := some "Recent entries", sampleItems := some ["Example entry"] }]

def conversion (title : String) : Screen where
  name := "Get started"
  goal := "Turn interest in " ++ title ++ " into a sign-up"
  primaryActions := ["Join the waitlist"]
  components := [
    { kind := .cta, title := some "Ready to try it?",
      description := some ("Be first to use " ++ title ++ "."), actions := ["Join the waitlist"] },
    { kind := .form, title := some "Stay in touch", fields := some ["Email"],
      actions := ["Notify me"] }]

def metrics (metric : String) (goals : List String) : List String :=
  let stated := ("Improve " ++ metric) :: (goals.take 2).map ("Progress on: " ++ ·)
  if stated.length < 2 then stated ++ Placeholder.metrics.take 1 else stated

def metadata (focus phase : Option String) : Members :=
  [("fallback", .bool true)] ++ (focus.map fun f => ("focus", Value.text f)).toList ++
    (phase.map fun p => ("phase", Value.text p)).toList

def spec (project : Project) (focus phase : Option String) : Spec :=
  let title := (Text.filled? project.title).getD "New product concept"
  let goals := project.statedGoals
  let goal := goals.head?.getD "Show the core value of the product in a few clicks"
  let metric := (clean project.northStar).getD "Weekly active users"
  let focus := clean focus
  let phase := clean phase
  let screens := [
    welcome title goal metric, focusScreen focus goals phase, interaction title focus,
    conversion title]
  { title
    summary :=
      match focus with
      | some f => title ++ " prototype focused on " ++ f ++ "."
      | none => title ++ " prototype covering the core journey."
    goal := some goal
    successMetrics := some (metrics metric goals)
    keyScreens := screens
    userFlow := some (screens.map Screen.name)
    visualStyle := some "Clean, high-contrast layout with generous spacing"
    callToAction := some "Get started"
    metadata := some (metadata focus phase) }

end Mockup.Synthesis
