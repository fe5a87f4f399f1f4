import Mathlib.Data.List.Forall2
import Mockup.Proofs.Text.Trim

/-! Choices between texts that may be missing. The first that is there is taken, and then it counts
for nothing if it is blank: a blank text hides those after it. Where none is hidden, blank texts
may as well be missing. -/

namespace Mockup.Text

variable {x y : Option String} {xs ys : List (Option String)} {t : String}

/-- What comes of a choice, the preferred text first. -/
def chosen? (xs : List (Option String)) : Option String := (xs.findSome? id).bind filled?

def Omits (x y : Option String) : Prop := y = x ∨ y = none ∧ ∀ t ∈ x, isBlankText t = true

/-- The text that is taken is blank, and another is not. -/
def Hides (xs : List (Option String)) : Prop :=
  (∃ t, xs.findSome? id = some t ∧ isBlankText t = true) ∧ ∃ t, some t ∈ xs ∧ isBlankText t = false

/-- The second choice is the first without some blank texts. Where one hides others, those may be
missing as well, and are not taken in its place. -/
structure Thins (xs ys : List (Option String)) : Prop where
  each : List.Forall₂ (fun x y => y = x ∨ y = none ∧ ∀ t ∈ x, isBlankText t = true ∨ Hides xs) xs ys
  hidden : Hides xs → ∀ t, ys.findSome? id = some t → isBlankText t = true

theorem Omits.bind_filled? (h : Omits x y) : y.bind filled? = x.bind filled? := by
  rcases h with rfl | ⟨rfl, hblank⟩
  · rfl
  · cases x with
    | none => rfl
    | some t => exact (filled?_eq_none_iff.mpr (hblank t rfl)).symm

theorem chosen?_eq_none (h : ∀ t, xs.findSome? id = some t → isBlankText t = true) :
    chosen? xs = none := by
  rw [chosen?]
  cases hfirst : xs.findSome? id with
  | none => rfl
  | some t => exact filled?_eq_none_iff.mpr (h t hfirst)

theorem Hides.chosen?_eq (h : Hides xs) : chosen? xs = none := by
  obtain ⟨⟨t, ht, hblank⟩, -⟩ := h
  rw [chosen?, ht]
  exact filled?_eq_none_iff.mpr hblank

theorem mem_of_findSome? (h : xs.findSome? id = some t) : some t ∈ xs := by
  obtain ⟨x, hx, rfl⟩ := List.exists_of_findSome?_eq_some h
  exact hx

theorem mem_of_omits (h : List.Forall₂ Omits xs ys) (ht : some t ∈ ys) : some t ∈ xs := by
  induction h with
  | nil => cases ht
  | @cons x y xs ys hxy _ ih =>
    rcases List.mem_cons.mp ht with rfl | ht
    · rcases hxy with rfl | ⟨hnone, -⟩
      · exact List.mem_cons_self
      · cases hnone
    · exact List.mem_cons_of_mem _ (ih ht)

theorem findSome?_of_omits (h : List.Forall₂ Omits xs ys)
    (hfirst : ∀ t, xs.findSome? id = some t → isBlankText t = false) :
    ys.findSome? id = xs.findSome? id := by
  induction h with
  | nil => rfl
  | @cons x y xs ys hxy _ ih =>
    cases x with
    | none =>
      have hy : y = none := hxy.elim id And.left
      subst hy
      exact ih hfirst
    | some t =>
      rcases hxy with rfl | ⟨-, hblank⟩
      · rfl
      · have hfilled := hfirst t rfl
        rw [hblank t rfl] at hfilled
        cases hfilled

theorem not_hides_of_filled (ht : xs.findSome? id = some t) (hfilled : isBlankText t = false) :
    ¬ Hides xs := by
  rintro ⟨⟨u, hu, hblank⟩, -⟩
  obtain rfl := Option.some.inj (ht.symm.trans hu)
  rw [hblank] at hfilled
  cases hfilled

theorem thins_of_omits (hhides : ¬ Hides xs) (h : List.Forall₂ Omits xs ys) : Thins xs ys where
  each := h.imp fun _ _ hxy => hxy.imp_right fun ⟨hy, hx⟩ => ⟨hy, fun t ht => .inl (hx t ht)⟩
  hidden hhidden := absurd hhidden hhides

theorem Thins.chosen?_eq (h : Thins xs ys) : chosen? ys = chosen? xs := by
  by_cases hhides : Hides xs
  · rw [hhides.chosen?_eq, chosen?_eq_none (h.hidden hhides)]
  · have homits : List.Forall₂ Omits xs ys :=
      h.each.imp fun x y hxy => hxy.imp_right fun ⟨hy, hx⟩ =>
        ⟨hy, fun t ht => (hx t ht).resolve_right hhides⟩
    by_cases hfirst : ∀ t, xs.findSome? id = some t → isBlankText t = false
    · rw [chosen?, chosen?, findSome?_of_omits homits hfirst]
    · simp only [not_forall, Bool.not_eq_false] at hfirst
      obtain ⟨t, ht, hblank⟩ := hfirst
      -- as it hides no other, all texts are blank
      have hall (u : String) (hu : some u ∈ xs) : isBlankText u = true := by
        by_contra hfilled
        exact hhides ⟨⟨t, ht, hblank⟩, u, hu, Bool.eq_false_iff.mpr hfilled⟩
      rw [chosen?_eq_none fun u hu => hall u (mem_of_omits homits (mem_of_findSome? hu)),
        chosen?_eq_none fun u hu => hall u (mem_of_findSome? hu)]

end Mockup.Text
