import Mockup.Bundle.Basic
import Mockup.Proofs.Payload.Reading

/-! Complete specifications: they have a screen, and every screen has a name. -/

namespace Mockup.Spec

theorem completeScreens_eq (place : Nat) (xs : List Screen) :
    completeScreens place xs = (xs.zipIdx place).map fun p => completeScreen p.2 p.1 := by
  induction xs generalizing place with
  | nil => rfl
  | cons x xs ih => rw [completeScreens, List.zipIdx_cons, List.map_cons, ih]

theorem not_blank_completeScreen (place : Nat) (x : Screen) :
    Text.isBlankText (completeScreen place x).name = false := by
  have hname : (completeScreen place x).name =
      if Text.isBlankText x.name then Placeholder.numberedName place else x.name := rfl
  rw [hname]
  split
  · exact (Payload.filled_numberedName place).not_blank
  · next h => rwa [Bool.not_eq_true] at h

theorem not_blank_name (s : Spec) {x : Screen} (hx : x ∈ s.complete.keyScreens) :
    Text.isBlankText x.name = false := by
  have hscreens : ∃ xs, s.complete.keyScreens = completeScreens 0 xs := ⟨_, rfl⟩
  obtain ⟨xs, hxs⟩ := hscreens
  rw [hxs, completeScreens_eq, List.mem_map] at hx
  obtain ⟨p, -, rfl⟩ := hx
  exact not_blank_completeScreen p.2 p.1

theorem keyScreens_complete_ne_nil (s : Spec) : s.complete.keyScreens ≠ [] := by
  have hscreens : s.complete.keyScreens = completeScreens 0
      (if s.keyScreens.isEmpty then
        [{ name := Placeholder.screenName, goal := s.goal.getD Placeholder.goal }]
      else s.keyScreens) := rfl
  rw [hscreens, completeScreens_eq]
  split
  · exact List.cons_ne_nil _ _
  · next h =>
    intro hnil
    rw [List.map_eq_nil_iff, List.zipIdx_eq_nil_iff] at hnil
    rw [hnil] at h
    exact h rfl

end Mockup.Spec
