import Mockup.Proofs.Page.Deed
import Mockup.Proofs.Page.Parts

/-! Pages that show the state they are in. Whatever happens to such a page changes its state and
shows it anew, and comes to its end. -/

namespace Mockup.Page

open Json View Element

def typeIn (typed : List (Nat × String)) (es : List Element) : List Element :=
  typed.foldl (fun es t => (fillAll (.text t.2) (some t.1) es).1) es

theorem typeIn_concat (typed : List (Nat × String)) (n : Nat) (text : String) (es : List Element) :
    typeIn (typed ++ [(n, text)]) es = (fillAll (.text text) (some n) (typeIn typed es)).1 :=
  List.foldl_append

theorem retyped_typeIn (typed : List (Nat × String)) {es fs : List Element} (h : Retyped es fs) :
    Retyped (typeIn typed es) fs := by
  induction typed generalizing es with
  | nil => exact h
  | cons t typed ih => exact ih (h.fillAll _ _)

/-- A page that shows the state it is in, but for texts typed since it was last shown. -/
structure Current (s : Spec) (p : Page) : Prop where
  data : p.data = s.toValue
  screen : p.state.screen < s.keyScreens.length
  content : ∃ typed, p.content = typeIn typed (view p.data p.state).1

namespace Current

variable {s : Spec} {p : Page}

theorem exists_drawn (h : Current s p) :
    ∃ x, s.keyScreens[p.state.screen]? = some x ∧ Retyped p.content (Drawn.page s p.state x) := by
  have hscreen := List.getElem?_eq_getElem h.screen
  refine ⟨_, hscreen, ?_⟩
  obtain ⟨typed, htyped⟩ := h.content
  rw [htyped, h.data, view_toValue s p.state hscreen]
  exact retyped_typeIn typed (.refl _)

theorem withClass_link (h : Current s p) :
    withClass "nav-link" p.content = Drawn.links s p.state := by
  obtain ⟨x, -, hcontent⟩ := h.exists_drawn
  have hlinks := Page.withClass_link s p.state x
  rw [← hlinks]
  refine hcontent.withClass fun e he => ?_
  rw [hlinks] at he
  obtain ⟨hchildren, htag, -⟩ := leaf_of_mem_links s p.state he
  rw [IsPlain, htag]
  exact ⟨hchildren, by decide⟩

theorem withClass_toast (h : Current s p) :
    withClass "notification" p.content = p.state.notifications.map toast := by
  obtain ⟨x, -, hcontent⟩ := h.exists_drawn
  have htoasts := Page.withClass_toast s p.state x
  rw [← htoasts]
  refine hcontent.withClass fun e he => ?_
  rw [htoasts] at he
  obtain ⟨hchildren, htag, -⟩ := leaf_of_mem_toasts p.state he
  rw [IsPlain, htag]
  exact ⟨hchildren, by decide⟩

end Current

theorem isPlain_button (className type text : String) (onClick : Option Reaction) :
    IsPlain (button className type text onClick) := by
  have htag : "BUTTON" ≠ "INPUT" := by decide
  exact ⟨rfl, htag⟩

theorem Wired.of_untyped {f g : Element.Found} (hg : Wired g) (h : f.untyped = g.untyped) :
    Wired f := by
  obtain ⟨element, form⟩ := f
  obtain ⟨helement, hform⟩ := Found.mk.inj h
  cases hg with
  | action className label form' =>
    obtain rfl : element = button _ _ _ _ := (isPlain_button _ _ _ _).eq helement
    exact .action className label form
  | adding className place form' =>
    obtain rfl : element = button _ _ _ _ := (isPlain_button _ _ _ _).eq helement
    exact .adding className place form
  | @submitting className label form' submission hsubmit =>
    obtain ⟨form, rfl, huntyped⟩ := Option.map_eq_some_iff.mp hform
    obtain rfl : element = button _ _ _ _ := (isPlain_button _ _ _ _).eq helement
    exact .submitting className label ((onSubmit_eq huntyped).trans hsubmit)

theorem Wired.of_retyped {es fs : List Element} (h : Retyped es fs)
    (hfs : ∀ g ∈ buttons none fs, Wired g) {f : Element.Found} (hf : f ∈ buttons none es) :
    Wired f := by
  have hmem := List.mem_map_of_mem (f := Found.untyped) hf
  rw [h.map_untyped_buttons, List.mem_map] at hmem
  obtain ⟨g, hg, heq⟩ := hmem
  exact (hfs g hg).of_untyped heq.symm

theorem Current.wired {s : Spec} {p : Page} (h : Current s p) {f : Element.Found}
    (hf : f ∈ buttons none p.content) : Wired f := by
  obtain ⟨x, -, hcontent⟩ := h.exists_drawn
  exact .of_retyped hcontent (fun g hg => wired_of_mem_buttons s p.state x hg) hf

end Mockup.Page
