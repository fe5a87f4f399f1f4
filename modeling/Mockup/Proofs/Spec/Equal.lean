import Mockup.Proofs.Json.Equal
import Mockup.Proofs.Spec.Recovers

/-! Specifications that are the same are equal if they are ordered and no double in them is zero.
Nothing of an ordered specification is lost in its free-form value. -/

namespace Mockup

open Json Json.Field

section Injective

variable {α β : Type} {f : α → β} {P : α → Prop}

theorem eq_of_map_eq (hf : ∀ x y, P x → P y → f x = f y → x = y) {xs ys : List α}
    (hxs : ∀ x ∈ xs, P x) (hys : ∀ y ∈ ys, P y) (h : xs.map f = ys.map f) : xs = ys := by
  induction xs generalizing ys with
  | nil => exact (List.map_eq_nil_iff.mp h.symm).symm
  | cons x xs ih =>
    cases ys with
    | nil => cases h
    | cons y ys =>
      rw [List.map_cons, List.map_cons, List.cons.injEq] at h
      rw [List.forall_mem_cons] at hxs hys
      rw [hf x y hxs.1 hys.1 h.1, ih hxs.2 hys.2 h.2]

theorem eq_of_optionMap_eq (hf : ∀ x y, P x → P y → f x = f y → x = y) {x y : Option α}
    (hx : ∀ z ∈ x, P z) (hy : ∀ z ∈ y, P z) (h : x.map f = y.map f) : x = y := by
  cases x with
  | none => exact (Option.map_eq_none_iff.mp h.symm).symm
  | some x =>
    cases y with
    | none => cases h
    | some y => rw [hf x y (hx x rfl) (hy y rfl) (Option.some.inj h)]

end Injective

theorem Json.Value.text_injective : Function.Injective Value.text := fun _ _ => Value.text.inj

theorem Json.Value.texts_injective : Function.Injective Value.texts := fun _ _ h =>
  text_injective.list_map (Value.list.inj h)

theorem Component.row_injective : Function.Injective row := by
  intro cells cells' h
  refine Function.Injective.list_map (fun c c' hc => ?_) (Value.object.inj h)
  obtain ⟨hkey, htext⟩ := Prod.mk.inj hc
  exact Prod.ext hkey (Value.text.inj htext)

theorem Kind.name_injective : Function.Injective name := by
  have hfind (k : Kind) : (all.map fun k => (k.name, k)).lookup k.name = some k := by
    cases k <;> decide
  intro k k' h
  have hfound := hfind k
  rw [h, hfind k'] at hfound
  exact (Option.some.inj hfound).symm

theorem Json.Value.optionText_injective : Function.Injective (Option.map Value.text) :=
  Option.map_injective text_injective

theorem Json.Value.optionTexts_injective : Function.Injective (Option.map Value.texts) :=
  Option.map_injective texts_injective

theorem Component.row_eq {r r' : List (String × String)} (hr : OrderedRow r) (hr' : OrderedRow r')
    (h : (row r).normal = (row r').normal) : r = r' := by
  rw [hr.wellFormed_row.normal_eq, hr'.wellFormed_row.normal_eq] at h
  exact row_injective h

theorem Component.eq_of_toValue_eq {c c' : Component} (hc : c.Ordered) (hc' : c'.Ordered)
    (h : record.toValue c = record.toValue c') : c = c' := by
  have hmembers : record.sortedMembers c = record.sortedMembers c' := Value.object.inj h
  obtain ⟨hkind, htitle, hdescription, hfields, hactions, hitems, hdataset⟩ := c.members_spec
  obtain ⟨hkind', htitle', hdescription', hfields', hactions', hitems', hdataset'⟩ :=
    c'.members_spec
  rw [hmembers] at hkind htitle hdescription hfields hactions hitems hdataset
  have hrows : c.dataset = c'.dataset :=
    eq_of_optionMap_eq (P := fun rows => ∀ r ∈ rows, OrderedRow r)
      (fun rows rows' hr hr' heq =>
        eq_of_map_eq (fun _ _ => row_eq) hr hr' (Value.list.inj heq))
      hc hc' (hdataset.symm.trans hdataset')
  cases c
  cases c'
  rw [Component.mk.injEq]
  exact ⟨Kind.name_injective (Value.text.inj (Option.some.inj (hkind.symm.trans hkind'))),
    Value.optionText_injective (htitle.symm.trans htitle'),
    Value.optionText_injective (hdescription.symm.trans hdescription'),
    Value.optionTexts_injective (hfields.symm.trans hfields'),
    Value.texts_injective (Option.some.inj (hactions.symm.trans hactions')),
    Value.optionTexts_injective (hitems.symm.trans hitems'), hrows⟩

theorem Screen.eq_of_toValue_eq {x y : Screen} (hx : ∀ c ∈ x.components, c.Ordered)
    (hy : ∀ c ∈ y.components, c.Ordered) (h : record.toValue x = record.toValue y) : x = y := by
  have hmembers : record.sortedMembers x = record.sortedMembers y := Value.object.inj h
  obtain ⟨hname, hgoal, hactions, hnotes, hcomponents⟩ := x.members_spec
  obtain ⟨hname', hgoal', hactions', hnotes', hcomponents'⟩ := y.members_spec
  rw [hmembers] at hname hgoal hactions hnotes hcomponents
  have hlists := Value.list.inj (Option.some.inj (hcomponents.symm.trans hcomponents'))
  cases x
  cases y
  rw [Screen.mk.injEq]
  exact ⟨Value.text.inj (Option.some.inj (hname.symm.trans hname')),
    Value.text.inj (Option.some.inj (hgoal.symm.trans hgoal')),
    Value.texts_injective (Option.some.inj (hactions.symm.trans hactions')),
    Value.optionText_injective (hnotes.symm.trans hnotes'),
    eq_of_map_eq (fun _ _ => Component.eq_of_toValue_eq) hx hy hlists⟩

theorem Component.realFree_ordered (c : Component) : (record.ordered c).RealFree := by
  have hrow (r : List (String × String)) : (row r).RealFree :=
    .object (List.forall_mem_map.mpr fun p _ => .text p.2)
  refine .object (Record.forall_members fun f hf => ?_)
  simp only [record, List.mem_cons, List.not_mem_nil, or_false] at hf
  rcases hf with rfl | rfl | rfl | rfl | rfl | rfl | rfl
  · exact writes_required (.text _)
  · exact writes_optional fun t _ => .text t
  · exact writes_optional fun t _ => .text t
  · exact writes_optional fun xs _ => Value.realFree_texts xs
  · exact writes_defaulted (Value.realFree_texts _)
  · exact writes_optional fun xs _ => Value.realFree_texts xs
  · exact writes_optional fun rows _ => .list (List.forall_mem_map.mpr fun r _ => hrow r)

theorem Screen.realFree_ordered (x : Screen) : (record.ordered x).RealFree := by
  refine .object (Record.forall_members fun f hf => ?_)
  simp only [record, List.mem_cons, List.not_mem_nil, or_false] at hf
  rcases hf with rfl | rfl | rfl | rfl | rfl
  · exact writes_required (.text _)
  · exact writes_required (.text _)
  · exact writes_defaulted (Value.realFree_texts _)
  · exact writes_optional fun t _ => .text t
  · exact writes_defaulted (.list (List.forall_mem_map.mpr fun c _ => c.realFree_ordered))

namespace Spec

variable {s t : Spec}

theorem eq_of_toValue_eq (hs : s.Ordered) (ht : t.Ordered) (h : s.toValue = t.toValue) :
    s = t := by
  have hmembers : record.sortedMembers s = record.sortedMembers t := Value.object.inj h
  obtain ⟨htitle, hsummary, hgoal, hmetrics, hscreens, hflow, hstyle, hcall, hmetadata⟩ :=
    s.members_spec
  obtain ⟨htitle', hsummary', hgoal', hmetrics', hscreens', hflow', hstyle', hcall', hmetadata'⟩ :=
    t.members_spec
  rw [hmembers] at htitle hsummary hgoal hmetrics hscreens hflow hstyle hcall hmetadata
  have hlists := Value.list.inj (Option.some.inj (hscreens.symm.trans hscreens'))
  have hobjects : s.metadata = t.metadata := by
    refine eq_of_optionMap_eq (P := fun m => (Value.object m).WellFormed)
      (fun m m' hm hm' heq => ?_) hs.metadata ht.metadata (hmetadata.symm.trans hmetadata')
    rw [hm.normal_eq, hm'.normal_eq] at heq
    exact Value.object.inj heq
  have hcomponents := eq_of_map_eq (P := fun x : Screen => ∀ c ∈ x.components, c.Ordered)
    (fun _ _ => Screen.eq_of_toValue_eq) hs.components ht.components hlists
  cases s
  cases t
  rw [Spec.mk.injEq]
  exact ⟨Value.text.inj (Option.some.inj (htitle.symm.trans htitle')),
    Value.text.inj (Option.some.inj (hsummary.symm.trans hsummary')),
    Value.optionText_injective (hgoal.symm.trans hgoal'),
    Value.optionTexts_injective (hmetrics.symm.trans hmetrics'), hcomponents,
    Value.optionTexts_injective (hflow.symm.trans hflow'),
    Value.optionText_injective (hstyle.symm.trans hstyle'),
    Value.optionText_injective (hcall.symm.trans hcall'), hobjects⟩

theorem realFree_or_metadata (s : Spec) :
    ∀ p ∈ record.members s, p.2.RealFree ∨ ∃ m ∈ s.metadata, p.2 = .object m := by
  refine Record.forall_members (P := fun v => v.RealFree ∨ ∃ m ∈ s.metadata, v = .object m)
    fun f hf => ?_
  simp only [record, List.mem_cons, List.not_mem_nil, or_false] at hf
  rcases hf with rfl | rfl | rfl | rfl | rfl | rfl | rfl | rfl | rfl
  · exact writes_required (.inl (.text _))
  · exact writes_required (.inl (.text _))
  · exact writes_optional fun t _ => .inl (.text t)
  · exact writes_optional fun xs _ => .inl (Value.realFree_texts xs)
  · exact writes_required
      (.inl (.list (List.forall_mem_map.mpr fun x _ => x.realFree_ordered)))
  · exact writes_optional fun xs _ => .inl (Value.realFree_texts xs)
  · exact writes_optional fun t _ => .inl (.text t)
  · exact writes_optional fun t _ => .inl (.text t)
  · exact writes_optional fun m hm => .inr ⟨m, hm, rfl⟩

theorem RealFree.ordered (h : s.RealFree) : (record.ordered s).RealFree := by
  refine .object fun p hp => ?_
  rcases s.realFree_or_metadata p hp with hreal | ⟨m, hm, hobject⟩
  · exact hreal
  · rw [hobject]
    exact h m hm

def ZeroFree (s : Spec) : Prop := ∀ m ∈ s.metadata, (Value.object m).ZeroFree

theorem RealFree.zeroFree (h : s.RealFree) : s.ZeroFree := fun m hm => (h m hm).zeroFree

theorem ZeroFree.ordered (h : s.ZeroFree) : (record.ordered s).ZeroFree := by
  refine .object fun p hp => ?_
  rcases s.realFree_or_metadata p hp with hreal | ⟨m, hm, hobject⟩
  · exact hreal.zeroFree
  · rw [hobject]
    exact h m hm

theorem eq_of_same (hs : s.Ordered) (ht : t.Ordered) (hzero : s.ZeroFree)
    (h : s.same t = true) : s = t :=
  eq_of_toValue_eq hs ht (Value.eq_of_same hzero.ordered.normal h)

end Spec

end Mockup
