import Mockup.Json.Record
import Mockup.Text.Blank

/-! Projects: the known facts that a mock-up is made for. -/

namespace Mockup

open Json

structure Project where
  title : String
  summary : Option String := none
  goals : List String := []
  northStar : Option String := none
  focus : Option String := none
  phase : Option String := none

namespace Project

def record : Record Project where
  name := "ProjectContext"
  blank := { title := "" }
  fields := [
    .required "title" .text .text Project.title (fun v p => { p with title := v }),
    .optional "summary" .text .text Project.summary (fun v p => { p with summary := v }),
    .defaulted "goals" .texts .texts Project.goals (fun v p => { p with goals := v }),
    .optional "north_star_metric" .text .text Project.northStar
      (fun v p => { p with northStar := v }),
    .optional "focus" .text .text Project.focus (fun v p => { p with focus := v }),
    .optional "phase" .text .text Project.phase (fun v p => { p with phase := v })]

def statedGoals (p : Project) : List String := p.goals.filterMap Text.filled?

def synopsis (p : Project) : String :=
  (p.summary.bind Text.filled?).getD ("; ".intercalate p.statedGoals)

end Project

end Mockup
