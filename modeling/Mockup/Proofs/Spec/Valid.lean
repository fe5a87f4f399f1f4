import Mockup.Proofs.Json.Schema
import Mockup.Proofs.Spec.Record
import Mockup.Proofs.Text.Trim
import Mockup.Spec.Schema

/-! When a specification is valid. The schema asks for no more than what is checked by hand before
it: a title that is not blank, a screen, and a name and a component for each screen. -/

namespace Mockup

open Json

theorem Spec.accepts_texts (xs : List String) : strings.Accepts (.texts xs) := by
  refine Schema.accepts_list_iff.mpr ⟨fun v hv => ?_, Nat.zero_le _⟩
  obtain ⟨s, -, rfl⟩ := List.mem_map.mp hv
  exact Schema.accepts_text_zero s

theorem Kind.mem_all (k : Kind) : k ∈ all := by cases k <;> decide

theorem Component.accepts_row (cells : List (String × String)) :
    (Schema.mapping (.text 0)).Accepts (row cells).normal := by
  refine Schema.accepts_mapping_iff.mpr fun p hp => ?_
  have hmem := Members.mem_sorted hp
  rw [Value.normalMembers_eq_map, List.map_map] at hmem
  obtain ⟨cell, -, rfl⟩ := List.mem_map.mp hmem
  exact Schema.accepts_text_zero cell.2

theorem Component.accepts_toValue (c : Component) :
    Spec.componentSchema.Accepts (record.toValue c) := by
  obtain ⟨hkind, htitle, hdescription, hfields, hactions, hitems, hdataset⟩ := c.members_spec
  rw [Record.toValue_eq, Spec.componentSchema, Schema.accepts_object_iff]
  constructor
  · simp only [List.forall_mem_cons, List.not_mem_nil, IsEmpty.forall_iff, implies_true, and_true,
      hkind, htitle, hdescription, hfields, hactions, hitems, hdataset, Option.mem_def,
      Option.some.injEq, Option.map_eq_some_iff, forall_eq', forall_exists_index, and_imp,
      forall_apply_eq_imp_iff₂]
    refine ⟨Spec.accepts_texts _, fun rows _ => ?_, fun t _ => Schema.accepts_text_zero t,
      fun xs _ => Spec.accepts_texts xs, ?_, fun xs _ => Spec.accepts_texts xs,
      fun t _ => Schema.accepts_text_zero t⟩
    · refine Schema.accepts_list_iff.mpr ⟨fun v hv => ?_, Nat.zero_le _⟩
      obtain ⟨cells, -, rfl⟩ := List.mem_map.mp hv
      exact accepts_row cells
    · exact Schema.accepts_choice (List.mem_map_of_mem c.kind.mem_all)
  · simp [hkind, hactions]

theorem Screen.accepts_toValue {s : Screen} (hname : s.name ≠ "")
    (hcomponents : s.components ≠ []) :
    Spec.screenSchema.Accepts (record.toValue s) := by
  obtain ⟨hn, hgoal, hactions, hnotes, hcs⟩ := s.members_spec
  rw [Record.toValue_eq, Spec.screenSchema, Schema.accepts_object_iff]
  constructor
  · simp only [List.forall_mem_cons, List.not_mem_nil, IsEmpty.forall_iff, implies_true, and_true,
      hn, hgoal, hactions, hnotes, hcs, Option.mem_def, Option.some.injEq, Option.map_eq_some_iff,
      forall_eq', forall_exists_index, and_imp, forall_apply_eq_imp_iff₂]
    refine ⟨Schema.accepts_list_iff.mpr ⟨fun v hv => ?_, ?_⟩, Schema.accepts_text_zero _,
      fun t _ => Schema.accepts_text_zero t, Schema.accepts_text_iff.mpr ?_, Spec.accepts_texts _⟩
    · obtain ⟨c, -, rfl⟩ := List.mem_map.mp hv
      exact c.accepts_toValue
    · rw [List.length_map]
      exact List.length_pos_of_ne_nil hcomponents
    · exact Nat.one_le_iff_ne_zero.mpr (by simpa using hname)
  · simp [hn, hgoal, hactions, hcs]

namespace Spec

theorem accepts_toValue {s : Spec} (htitle : s.title ≠ "") (hscreens : s.keyScreens ≠ [])
    (h : ∀ x ∈ s.keyScreens, x.name ≠ "" ∧ x.components ≠ []) : schema.Accepts s.toValue := by
  obtain ⟨ht, hsummary, hgoal, hmetrics, hxs, hflow, hstyle, hcall, hmeta⟩ := s.members_spec
  rw [toValue, Record.toValue_eq, schema, Schema.accepts_object_iff]
  constructor
  · simp only [List.forall_mem_cons, List.not_mem_nil, IsEmpty.forall_iff, implies_true, and_true,
      ht, hsummary, hgoal, hmetrics, hxs, hflow, hstyle, hcall, hmeta, Option.mem_def,
      Option.some.injEq, Option.map_eq_some_iff, forall_eq', forall_exists_index, and_imp,
      forall_apply_eq_imp_iff₂]
    refine ⟨fun t _ => Schema.accepts_text_zero t, fun t _ => Schema.accepts_text_zero t,
      Schema.accepts_list_iff.mpr ⟨fun v hv => ?_, ?_⟩, fun m _ => ?_, fun xs _ => accepts_texts xs,
      Schema.accepts_text_zero _, Schema.accepts_text_iff.mpr ?_, fun xs _ => accepts_texts xs,
      fun t _ => Schema.accepts_text_zero t⟩
    · obtain ⟨x, hx, rfl⟩ := List.mem_map.mp hv
      exact Screen.accepts_toValue (h x hx).1 (h x hx).2
    · rw [List.length_map]
      exact List.length_pos_of_ne_nil hscreens
    · exact Schema.accepts_object_iff.mpr (by simp)
    · exact Nat.one_le_iff_ne_zero.mpr (by simpa using htitle)
  · simp [ht, hsummary, hxs]

theorem ne_empty_of_not_blank {t : String} (h : Text.isBlankText t = false) : t ≠ "" := by
  rintro rfl
  cases h

theorem checkScreens_eq_ok_iff {n : Nat} {xs : List Screen} :
    checkScreens n xs = .ok () ↔
      ∀ x ∈ xs, Text.isBlankText x.name = false ∧ x.components ≠ [] := by
  induction xs generalizing n with
  | nil => simp [checkScreens]
  | cons x xs ih =>
    rw [checkScreens, List.forall_mem_cons]
    split_ifs with hname hcomponents
    · simp [hname]
    · simp [List.isEmpty_iff.mp hcomponents]
    · rw [ih]
      simp only [Bool.not_eq_true] at hname
      simp [hname, List.isEmpty_iff.not.mp hcomponents]

theorem validate_eq_ok_iff {s : Spec} :
    s.validate = .ok () ↔ Text.isBlankText s.title = false ∧ s.keyScreens ≠ [] ∧
      ∀ x ∈ s.keyScreens, Text.isBlankText x.name = false ∧ x.components ≠ [] := by
  rw [validate]
  split_ifs with htitle hscreens
  · simp [htitle]
  · simp [List.isEmpty_iff.mp hscreens]
  · have hne := List.isEmpty_iff.not.mp hscreens
    rw [Bool.not_eq_true] at htitle
    simp only [htitle, true_and]
    rw [← checkScreens_eq_ok_iff (n := 0)]
    cases hcheck : checkScreens 0 s.keyScreens with
    | error e => simp
    | ok u =>
      have hall := checkScreens_eq_ok_iff.mp hcheck
      have haccepts : schema.Accepts s.toValue :=
        accepts_toValue (ne_empty_of_not_blank htitle) hne fun x hx =>
          ⟨ne_empty_of_not_blank (hall x hx).1, (hall x hx).2⟩
      rw [Schema.Accepts] at haccepts
      simp [checkValue, haccepts, hne]

end Spec

end Mockup
