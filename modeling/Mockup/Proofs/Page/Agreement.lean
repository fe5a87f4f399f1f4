import Mockup.Proofs.Bundle.Carried
import Mockup.Proofs.Page.Blocks
import Mockup.Proofs.Page.Safe

/-! The two renderings of a bundle, its outline and its page. They show the same screens, and of each
screen the same components with the same texts. -/

namespace Mockup

open Text

namespace Spec

variable {s : Spec}

theorem worded_of_told {c : Component} (h : "" ∉ c.told) : c.Worded where
  title heq := h (by simp [Component.told, heq])
  description heq := h (by simp [Component.told, heq])
  actions hmem := h (List.mem_append_right _ hmem)

theorem goal_mem_told {x : Screen} : x.goal ∈ x.told :=
  List.mem_cons_of_mem _ List.mem_cons_self

theorem told_subset {x : Screen} (hx : x ∈ s.keyScreens) : x.told ⊆ s.told := by
  intro t ht
  refine List.mem_cons_of_mem _ (List.mem_cons_of_mem _ (List.mem_append_right _ ?_))
  exact List.mem_flatMap.mpr ⟨x, hx, ht⟩

theorem worded_completeScreen (place : Nat) {x : Screen} (hgoal : x.goal ≠ "")
    (hx : ∀ c ∈ x.components, c.Worded) : ∀ c ∈ (completeScreen place x).components, c.Worded := by
  have hcomponents : (completeScreen place x).components =
      if x.components.isEmpty then [Placeholder.component (completeScreen place x).name x.goal]
      else x.components := rfl
  intro c hc
  rw [hcomponents] at hc
  split at hc
  · obtain rfl := List.mem_singleton.mp hc
    have hname := ne_empty_of_not_blank (not_blank_completeScreen place x)
    exact ⟨fun h => hname (Option.some.inj h), fun h => hgoal (Option.some.inj h), nofun⟩
  · exact hx c hc

theorem worded_complete (htold : "" ∉ s.told) (hgoal : s.goal ≠ some "") :
    ∀ x ∈ s.complete.keyScreens, ∀ c ∈ x.components, c.Worded := by
  have hscreens : s.complete.keyScreens = completeScreens 0
      (if s.keyScreens.isEmpty then
        [{ name := Placeholder.screenName, goal := s.goal.getD Placeholder.goal }]
      else s.keyScreens) := rfl
  intro x hx
  rw [hscreens, completeScreens_eq, List.mem_map] at hx
  obtain ⟨p, hp, rfl⟩ := hx
  have hmem := List.fst_mem_of_mem_zipIdx hp
  split at hmem
  · obtain hfirst := List.mem_singleton.mp hmem
    rw [hfirst]
    refine worded_completeScreen p.2 ?_ nofun
    cases hcase : s.goal with
    | none => decide
    | some g => exact fun heq => hgoal (by rw [hcase]; exact congrArg some heq)
  · have hnone : "" ∉ p.1.told := fun h => htold (told_subset hmem h)
    refine worded_completeScreen p.2 (fun heq => hnone ?_) fun c hc => worded_of_told fun h => ?_
    · rw [← heq]
      exact goal_mem_told
    · exact hnone (List.mem_cons_of_mem _ (List.mem_cons_of_mem _
        (List.mem_flatMap.mpr ⟨c, hc, h⟩)))

end Spec

namespace Page

open Element

variable {s : Spec} {p : Page}

theorem map_content_links (s : Spec) (st : State) :
    (Drawn.links s st).map Element.content = s.keyScreens.map Screen.name := by
  have hlink (q : Screen × Nat) : (Drawn.link st q.1 q.2).content = q.1.name := by
    rw [Drawn.link, View.button, Element.content, Element.contents, String.append_empty]
  rw [Drawn.links, List.map_map]
  exact map_zipIdx_fst fun q _ => hlink q

theorem step_nav (h : Current s p) {i : Nat} {x : Screen} (hx : s.keyScreens[i]? = some x) :
    (p.step (.nav i)).2 = .ok none ∧
      (p.step (.nav i)).1.content = Drawn.page s { p.state with screen := i } x := by
  have hlink : (withClass "nav-link" p.content)[i]? = some (Drawn.link p.state x i) := by
    rw [h.withClass_link, Drawn.links, List.getElem?_map, List.getElem?_zipIdx, hx]
    simp
  have hscreen : i < (screensOf p.data).length := by
    rw [h.data, screensOf_toValue, List.length_map]
    exact (List.getElem?_eq_some_iff.mp hx).1
  let q : Page := { p with state := { p.state with screen := i } }
  have hstep : p.step (.nav i) = conclude q.refresh := by
    have hgo : p.go i = q.refresh := if_pos hscreen
    rw [step, hlink, ← hgo]
    rfl
  have hview : view q.data q.state = (Drawn.page s q.state x, true) := by
    have hdata : q.data = s.toValue := h.data
    rw [hdata]
    exact view_toValue s q.state hx
  have hrefresh : q.refresh = ({ q with content := Drawn.page s q.state x }, true) := by
    rw [refresh, hview]
  rw [hstep, hrefresh]
  exact ⟨rfl, rfl⟩

/-- The page of a bundle has its data from the script of the bundle. The links of the page are named
like the sections of the outline, of which there is one at least and which are the screens of the
specification; and each link opens a screen with the components of its section. -/
theorem renderings_agree (spare : String) (s : Spec) (htold : "" ∉ s.told)
    (hgoal : s.goal ≠ some "") (ds : List Deed) :
    let b := Bundle.compile spare s
    let sections := Markup.sectionsOf b.markup
    let p := (Session.after s ds).page
    (s.RealFree → Script.Gives b.script p.data) ∧
    sections = s.complete.keyScreens.map Screen.rendering ∧ sections ≠ [] ∧
    (withClass "nav-link" p.content).map Element.content =
      sections.map Screen.Rendering.heading ∧
    ∀ (i : Nat) (hi : i < sections.length),
      (p.step (.nav i)).2 = .ok none ∧
      componentsOf (p.step (.nav i)).1.content =
        sections[i].components.map Component.Rendering.live := by
  have hsections : Markup.sectionsOf (Bundle.compile spare s).markup =
      s.complete.keyScreens.map Screen.rendering := Markup.sectionsOf_render s.complete
  have hcurrent := (sound_after s ds).current
  have hworded := s.worded_complete htold hgoal
  generalize hpage : (Session.after s ds).page = p at hcurrent
  dsimp only
  simp only [hsections]
  refine ⟨fun hreal => ?_, trivial, ?_, ?_, fun i hi => ?_⟩
  · have hcomplete : s.complete.RealFree := hreal
    rw [hcurrent.data]
    exact Script.gives_toValue hcomplete
  · rw [ne_eq, List.map_eq_nil_iff]
    exact s.keyScreens_complete_ne_nil
  · rw [hcurrent.withClass_link, map_content_links, List.map_map]
    rfl
  · -- the click shows the screen anew, so that what was done before does not matter
    rw [List.length_map] at hi
    have hx := List.getElem?_eq_getElem hi
    obtain ⟨hok, hcontent⟩ := step_nav hcurrent hx
    refine ⟨hok, ?_⟩
    have hcomponents := componentsOf_page s.complete { p.state with screen := i }
      (hworded _ (List.getElem_mem hi))
    rw [hcontent, hcomponents, List.getElem_map, Screen.rendering, List.map_map]
    rfl

def travels : Spec where
  title := "Travels"
  summary := "All trips"
  keyScreens := [
    { name := "Home", goal := "Plan a trip"
      components := [
        { kind := .form, fields := some ["City"] },
        { kind := .list, title := some "Trips", actions := ["Open"] }] }]

theorem renderings_agree_travels :
    "" ∉ travels.told ∧ travels.goal ≠ some "" ∧
      Script.Gives (Bundle.compile "" travels).script (Session.after travels []).page.data ∧
      componentsOf ((Session.after travels []).page.step (.nav 0)).1.content =
        [⟨"form", [], [], ["Submit"]⟩, ⟨"list", ["Trips"], [], ["Add item", "Open"]⟩] := by
  have htold : "" ∉ travels.told := by decide
  have hgoal : travels.goal ≠ some "" := nofun
  obtain ⟨hgives, hsections, -, -, hshown⟩ := renderings_agree "" travels htold hgoal []
  have hlength : 0 < (travels.complete.keyScreens.map Screen.rendering).length := by decide
  simp only [hsections] at hshown
  refine ⟨htold, hgoal, hgives nofun, ?_⟩
  exact (hshown 0 hlength).2

end Page

end Mockup
