import Mockup.Bundle.Basic
import Mockup.Proofs.Files.Path

/-! Slugs are names of directories. Whatever the title is, only small letters, digits and dashes
are in its slug. -/

namespace Mockup.Slug

def IsSlug (s : String) : Prop := s ≠ "" ∧ ∀ c ∈ s.toList, isAllowed c = true

theorem isAllowed_of_mem_collapse {pending : Bool} {cs : List Char} {c : Char}
    (h : c ∈ collapse pending cs) : isAllowed c = true := by
  induction cs generalizing pending with
  | nil => cases h
  | cons d ds ih =>
    unfold collapse at h
    split at h
    · next hd =>
      have hrest (h : c ∈ d :: collapse false ds) : isAllowed c = true := by
        rcases List.mem_cons.mp h with rfl | h
        · exact hd
        · exact ih h
      split at h
      · rcases List.mem_cons.mp h with rfl | h
        · rfl
        · exact hrest h
      · exact hrest h
    · exact ih h

theorem mem_of_mem_stripDashes {cs : List Char} {c : Char} (h : c ∈ stripDashes cs) : c ∈ cs := by
  unfold stripDashes Text.strip Text.dropEnd at h
  have hmem := (List.dropWhile_suffix _).subset (List.mem_reverse.mp h)
  exact (List.dropWhile_suffix _).subset (List.mem_reverse.mp hmem)

theorem isSlug_of_ofTitle? {title slug : String} (h : ofTitle? title = some slug) :
    IsSlug slug := by
  unfold ofTitle? at h
  split at h
  · cases h
  · next c cs hcs =>
    obtain rfl := Option.some.inj h
    refine ⟨fun hempty => by simpa using congrArg String.toList hempty, fun d hd => ?_⟩
    rw [String.toList_ofList, ← hcs] at hd
    exact isAllowed_of_mem_collapse (mem_of_mem_stripDashes hd)

theorem isSlug_ofTitle {spare : String} (h : IsSlug spare) (title : String) :
    IsSlug (ofTitle spare title) := by
  unfold ofTitle
  cases hslug : ofTitle? title with
  | none => exact h
  | some slug => exact isSlug_of_ofTitle? hslug

theorem ofTitle_ofTitle (spare title : String) :
    ofTitle (ofTitle spare title) title = ofTitle spare title := by
  unfold ofTitle
  cases ofTitle? title <;> rfl

theorem IsSlug.isName {s : String} (h : IsSlug s) : Files.Path.IsName s :=
  Files.Path.isName_of_forall h.1 h.2 (by decide) (by decide) (by decide)

theorem IsSlug.ne_of_mem {s t : String} {c : Char} (h : IsSlug s) (hc : c ∈ t.toList)
    (hallowed : isAllowed c = false) : s ≠ t := by
  rintro rfl
  rw [h.2 c hc] at hallowed
  cases hallowed

end Mockup.Slug

namespace Mockup.Bundle

theorem slug_compile (spare : String) (s : Spec) :
    (compile spare s).slug = Slug.ofTitle spare s.complete.title := by simp only [compile]

theorem isSlug_compile {spare : String} (h : Slug.IsSlug spare) (s : Spec) :
    Slug.IsSlug (compile spare s).slug := by
  rw [slug_compile]
  exact Slug.isSlug_ofTitle h _

theorem compile_slug (spare : String) (s : Spec) :
    compile (compile spare s).slug s = compile spare s := by
  rw [slug_compile]
  simp only [compile, Slug.ofTitle_ofTitle]

end Mockup.Bundle
