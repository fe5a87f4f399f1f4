import Mockup.Proofs.Payload.Sources

/-! What a screen shows. Components are read from one list only, the first one that is there; if
nothing in that list is usable, a filler stands in, whatever the other lists hold. -/

namespace Mockup.Payload

open Json Text

variable {m : Members} {vs : List Value}

theorem component?_eq_none_iff (v : Value) : component? v = none ↔ ¬ Usable v :=
  eq_none_iff_not_usable (fun _ => rfl) (fun _ => rfl) fun v hobject htext => by
    cases v with
    | text _ => cases htext
    | object _ => cases hobject
    | _ => rfl

def FirstList (m : Members) (vs : List Value) : Prop :=
  ∃ before key after, looseKeys = before ++ key :: after ∧ m.get? key = some (.list vs) ∧
    ∀ k ∈ before, ∀ ws, m.get? k ≠ some (.list ws)

theorem firstList?_eq_some_iff : firstList? m componentKeys = some vs ↔ FirstList m vs := by
  rw [firstList?, List.findSome?_eq_some_iff]
  simp only [bind_list?_eq_some_iff, Option.eq_none_iff_forall_ne_some, ne_eq]
  rfl

/-- The components for an object: one for each usable entry of its first list, or the filler where
that has none. -/
inductive Shows (m : Members) (filler : Component) : List Component → Prop where
  | entries {vs : List Value} {cs : List Component} (first : FirstList m vs)
      (usable : ∃ v ∈ vs, Usable v)
      (made : List.Forall₂ (fun v c => component? v = some c) (vs.filter (Usable ·)) cs) :
      Shows m filler cs
  | filler (unusable : ∀ vs, FirstList m vs → ∀ v ∈ vs, ¬ Usable v) : Shows m filler [filler]

theorem shows_of_firstList? {cs : List Component} (filler : Component)
    (h : ((firstList? m componentKeys).map componentsOf).getD [] = cs) :
    Shows m filler (if cs.isEmpty then [filler] else cs) := by
  subst h
  cases hfirst : firstList? m componentKeys with
  | none =>
    refine .filler fun vs hvs => ?_
    rw [← firstList?_eq_some_iff, hfirst] at hvs
    cases hvs
  | some vs =>
    have hnil : componentsOf vs = [] ↔ ∀ v ∈ vs, ¬ Usable v := by
      rw [componentsOf, List.filterMap_eq_nil_iff]
      simp only [component?_eq_none_iff]
    rw [Option.map_some, Option.getD_some]
    split
    · next hempty =>
      refine .filler fun ws hws => ?_
      rw [← firstList?_eq_some_iff, hfirst] at hws
      cases hws
      exact hnil.mp (List.isEmpty_iff.mp hempty)
    · next hsome =>
      refine .entries (firstList?_eq_some_iff.mp hfirst) ?_
        (forall₂_filterMap component?_eq_none_iff vs)
      by_contra hunusable
      simp only [not_exists, not_and] at hunusable
      exact hsome (List.isEmpty_iff.mpr (hnil.mpr hunusable))

/-- Whether an object is read as a screen or as the payload that a screen is made up for, the usable
entries of its first list are shown, and the filler exactly if there is none. -/
theorem shows_components (ctx : Context) (m : Members) :
    (∀ (place : Nat) (x : Screen), m.Sorted → screen? place (.object m) = some x →
      Shows m (Placeholder.component x.name x.goal) x.components) ∧
    Shows m (standIn ctx m (madeUpScreen ctx m).goal) (madeUpScreen ctx m).components := by
  refine ⟨fun place x hm hx => ?_, shows_of_firstList? _ rfl⟩
  obtain rfl := Option.some.inj hx
  have hfirst : firstList? (rename .screen m) componentKeys = firstList? m componentKeys :=
    findSome?_rename (by decide) hm Value.list?
  refine shows_of_firstList? _ ?_
  rw [hfirst]

theorem shows_section :
    let m : Members :=
      [("components", .null), ("name", .text "A"), ("sections", .list [.text "Hi", .null])]
    ∃ x, m.Sorted ∧ screen? 0 (.object m) = some x ∧
      Shows m (Placeholder.component x.name x.goal) x.components ∧
      x.components.map (·.title) = [some "Hi"] := by
  have hsorted : Members.Sorted [("components", .null), ("name", .text "A"),
      ("sections", .list [.text "Hi", .null])] := by
    rw [Members.Sorted]
    decide
  exact ⟨_, hsorted, rfl, (shows_components {} _).1 0 _ hsorted rfl, rfl⟩

/-- Where the components are a list with nothing usable in it, there is the filler beside a
section. -/
theorem filler_beside_section :
    let sections : Value := .list [.text "Hi"]
    Usable (.text "Hi") ∧
    (∃ x, screen? 0 (.object [("components", .list []), ("name", .text "A"),
        ("sections", sections)]) = some x ∧
      x.components = [Placeholder.component "A" Placeholder.goal]) ∧
    (madeUpScreen {} [("components", .list [.null]), ("sections", sections)]).components =
      [Placeholder.component "Untitled prototype" Placeholder.goal] :=
  ⟨by decide, ⟨_, rfl, rfl⟩, rfl⟩

end Mockup.Payload
