import Mockup.Proofs.Payload.Reading
import Mockup.Proofs.Payload.Renamed
import Mockup.Proofs.Spec.Clean
import Mockup.Proofs.Spec.Ordered

/-! Reading again what was written. The keys of a record are no aliases and the first that is looked
for, so that clean components and screens come back from their own objects. -/

namespace Mockup.Payload

open Json Text

variable {α β : Type} {m : Members}

theorem rename_sortedMembers (r : Record α) (x : α) (level : Level)
    (h : ∀ key ∈ r.keys, level.aliases.lookup key = none) :
    rename level (r.sortedMembers x) = r.sortedMembers x :=
  rename_eq_self (fun _ hp => h _ (r.mem_keys_of_mem x hp)) (r.sorted_sortedMembers x)

theorem findSome?_of_rest {read : Value → Option β} {key : String} {rest : List String}
    {o : Option β} (hrest : ∀ k ∈ rest, m.get? k = none) (h : (m.get? key).bind read = o) :
    ((key :: rest).findSome? fun k => (m.get? k).bind read) = o := by
  have hnone : (rest.findSome? fun k => (m.get? k).bind read) = none :=
    List.findSome?_eq_none_iff.mpr fun k hk => by rw [hrest k hk, Option.bind_none]
  rw [List.findSome?_cons, h, hnone]
  cases o <;> rfl

theorem absent_of_not_keys (r : Record α) (x : α) {keys : List String}
    (h : ∀ k ∈ keys, k ∉ r.keys) : ∀ k ∈ keys, (r.sortedMembers x).get? k = none :=
  fun k hk => r.get?_eq_none x (h k hk)

theorem filterMap_itemText?_texts {xs : List String} (h : ∀ t ∈ xs, Filled t) :
    (xs.map Value.text).filterMap itemText? = xs := by
  rw [List.filterMap_map]
  refine (List.filterMap_congr fun t ht => ?_).trans List.filterMap_some
  exact h t ht

theorem textList?_texts {xs : List String} (h : ∀ t ∈ xs, Filled t) :
    textList? (.texts xs) = some xs := congrArg some (filterMap_itemText?_texts h)

theorem bind_scalarText? {o : Option String} (h : ∀ t ∈ o, Filled t) :
    (o.map Value.text).bind scalarText? = o := by
  cases o with
  | none => rfl
  | some t => exact h t rfl

theorem bind_textList? {o : Option (List String)} (h : ∀ xs ∈ o, ∀ t ∈ xs, Filled t) :
    (o.map Value.texts).bind textList? = o := by
  cases o with
  | none => rfl
  | some xs => exact textList?_texts (h xs rfl)

theorem row?_row {cells : List (String × String)} (h : Component.OrderedRow cells) :
    row? (Component.row cells).normal = some cells := by
  rw [h.wellFormed_row.normal_eq, Component.row, row?, List.filterMap_map]
  exact congrArg some List.filterMap_some

theorem bind_rows? {o : Option (List (List (String × String)))}
    (h : ∀ rows ∈ o, ∀ cells ∈ rows, Component.OrderedRow cells) :
    (o.map fun rows => Value.list (rows.map fun r => (Component.row r).normal)).bind rows? = o := by
  cases o with
  | none => rfl
  | some rows =>
    refine congrArg some ?_
    rw [List.filterMap_map]
    refine (List.filterMap_congr fun cells hcells => ?_).trans List.filterMap_some
    exact row?_row (h rows rfl cells hcells)

theorem parse?_name (k : Kind) : Kind.parse? k.name = some k := by cases k <;> decide

theorem component?_toValue {c : Component} (hclean : c.Clean) (hordered : c.Ordered) :
    component? (Component.record.toValue c) = some c := by
  obtain ⟨hkind, htitle, hdescription, hfields, hactions, hitems, hdataset⟩ := c.members_spec
  have habsent {keys : List String} (h : ∀ k ∈ keys, k ∉ Component.record.keys) :=
    absent_of_not_keys Component.record c h
  simp only [Record.toValue_eq, component?, firstText?,
    rename_sortedMembers Component.record c .component (by decide)]
  rw [findSome?_of_rest (habsent (by decide)) (htitle ▸ bind_scalarText? hclean.title),
    findSome?_of_rest (habsent (by decide)) (hdescription ▸ bind_scalarText? hclean.description),
    findSome?_of_rest (habsent (by decide)) (hitems ▸ bind_textList? hclean.sampleItems),
    hkind, hfields, hactions, hdataset, bind_textList? hclean.fields, bind_rows? hordered,
    Option.bind_some, Option.bind_some, textList?_texts hclean.actions]
  simp only [Value.text?, Option.bind_some, parse?_name, Option.getD_some]

theorem componentsOf_toValue {cs : List Component} (hclean : ∀ c ∈ cs, c.Clean)
    (hordered : ∀ c ∈ cs, c.Ordered) : componentsOf (cs.map Component.record.toValue) = cs := by
  rw [componentsOf, List.filterMap_map]
  refine (List.filterMap_congr fun c hc => ?_).trans List.filterMap_some
  exact component?_toValue (hclean c hc) (hordered c hc)

theorem screen?_toValue (place : Nat) {x : Screen} (hclean : x.Clean)
    (hordered : ∀ c ∈ x.components, c.Ordered) :
    screen? place (Screen.record.toValue x) = some x := by
  obtain ⟨hname, hgoal, hactions, hnotes, hcomponents⟩ := x.members_spec
  have habsent {keys : List String} (h : ∀ k ∈ keys, k ∉ Screen.record.keys) :=
    absent_of_not_keys Screen.record x h
  have hlist : firstList? (Screen.record.sortedMembers x) componentKeys =
      some (x.components.map Component.record.toValue) :=
    findSome?_of_rest (habsent (by decide)) (hcomponents ▸ rfl)
  -- there is a component, so no placeholder is put in
  have hsome : orPlaceholder x.components x.name x.goal = x.components := by
    rw [orPlaceholder, if_neg (List.isEmpty_iff.not.mpr hclean.hasComponent)]
  simp only [Record.toValue_eq, screen?, firstText?, hlist,
    rename_sortedMembers Screen.record x .screen (by decide)]
  rw [findSome?_of_rest (o := some x.name) (habsent (by decide)) (hname ▸ hclean.name),
    findSome?_of_rest (o := some x.goal) (habsent (by decide)) (hgoal ▸ hclean.goal),
    findSome?_of_rest (o := some x.primaryActions) (habsent (by decide))
      (hactions ▸ textList?_texts hclean.primaryActions),
    findSome?_of_rest (habsent (by decide)) (hnotes ▸ bind_scalarText? hclean.layoutNotes)]
  simp only [Option.getD_some, Option.map_some,
    componentsOf_toValue hclean.components hordered, hsome]

theorem screensFrom_toValue (place : Nat) {xs : List Screen} (hclean : ∀ x ∈ xs, x.Clean)
    (hordered : ∀ x ∈ xs, ∀ c ∈ x.components, c.Ordered) :
    screensFrom place (xs.map Screen.record.toValue) = xs := by
  induction xs generalizing place with
  | nil => rfl
  | cons x xs ih =>
    obtain ⟨hx, hclean⟩ := List.forall_mem_cons.mp hclean
    obtain ⟨hc, hordered⟩ := List.forall_mem_cons.mp hordered
    simp only [List.map_cons, screensFrom, screen?_toValue place hx hc]
    rw [ih (place + 1) hclean hordered]

end Mockup.Payload
