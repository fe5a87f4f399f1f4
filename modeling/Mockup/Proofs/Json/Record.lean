import Mockup.Json.Record
import Mockup.Proofs.Json.WellFormed

/-! Records by their keys. Every field is found by its own key; in the sorted object written for a
record each key holds what its field writes, and there are no other keys. -/

namespace Mockup.Json.Record

variable {α : Type} {r : Record α}

def keys (r : Record α) : List String := r.fields.map Field.key

theorem mem_of_field? {key : String} {f : Field α} (h : r.field? key = some f) :
    f ∈ r.fields ∧ f.key = key :=
  ⟨List.mem_of_find?_eq_some h, by simpa using List.find?_some h⟩

theorem field?_of_mem (hnodup : r.keys.Nodup) {f : Field α} (hf : f ∈ r.fields) :
    r.field? f.key = some f := by
  unfold keys at hnodup
  unfold field?
  generalize r.fields = fields at hnodup hf ⊢
  induction fields with
  | nil => cases hf
  | cons f' fs ih =>
    obtain ⟨hfirst, hrest⟩ := List.nodup_cons.mp hnodup
    rcases List.mem_cons.mp hf with rfl | hf
    · rw [List.find?_cons_of_pos (by simp)]
    · have hne : f'.key ≠ f.key := fun heq => hfirst (List.mem_map.mpr ⟨f, hf, heq.symm⟩)
      rw [List.find?_cons_of_neg (by simpa using hne)]
      exact ih hrest hf

theorem eq_of_key_eq (hnodup : r.keys.Nodup) {f f' : Field α} (hf : f ∈ r.fields)
    (hf' : f' ∈ r.fields) (h : f.key = f'.key) : f = f' := by
  have hfind := field?_of_mem hnodup hf
  rw [h, field?_of_mem hnodup hf'] at hfind
  exact (Option.some.inj hfind).symm

theorem field?_eq_none {key : String} (h : key ∉ r.keys) : r.field? key = none := by
  cases hfield : r.field? key with
  | none => rfl
  | some f =>
    obtain ⟨hf, rfl⟩ := mem_of_field? hfield
    exact absurd (List.mem_map_of_mem hf) h

theorem missing?_eq_none {seen : List String}
    (h : ∀ f ∈ r.fields, f.absence = .refused → f.key ∈ seen) : r.missing? seen = none := by
  unfold missing?
  rw [Option.map_eq_none_iff, List.find?_eq_none]
  intro f hf hmissing
  simp only [Bool.and_eq_true, decide_eq_true_eq, Bool.not_eq_true', List.contains_eq_mem,
    decide_eq_false_iff_not] at hmissing
  exact hmissing.2 (h f hf hmissing.1)

def sortedMembers (r : Record α) (x : α) : Members :=
  Members.sorted (Value.normalMembers (r.members x))

theorem toValue_eq (r : Record α) (x : α) : r.toValue x = .object (r.sortedMembers x) := rfl

theorem sorted_sortedMembers (r : Record α) (x : α) : (r.sortedMembers x).Sorted :=
  Members.sorted_sorted _

theorem keys_members_sublist (r : Record α) (x : α) :
    ((r.members x).map Prod.fst).Sublist r.keys := by
  rw [members, keys, List.map_filterMap]
  induction r.fields with
  | nil => exact List.Sublist.slnil
  | cons f fs ih =>
    rw [List.filterMap_cons]
    cases hf : f.member? x with
    | none => exact ih.cons _
    | some v => exact ih.cons_cons _

theorem get?_members (r : Record α) (x : α) (h : r.keys.Nodup) (key : String) :
    Members.get? (r.members x) key = (r.field? key).bind fun f => f.member? x := by
  rw [keys] at h
  rw [members, field?]
  generalize r.fields = fields at h ⊢
  induction fields with
  | nil => rfl
  | cons f fs ih =>
    obtain ⟨hf, hfs⟩ := List.nodup_cons.mp h
    rw [List.find?_cons, List.filterMap_cons]
    by_cases hkey : f.key = key
    · have hnone : Members.get? (fs.filterMap fun f => (f.member? x).map fun v => (f.key, v)) key
          = none := by
        rw [ih hfs, List.find?_eq_none.mpr]
        · rfl
        · intro g hg hgkey
          exact hf (List.mem_map.mpr ⟨g, hg, (of_decide_eq_true hgkey).trans hkey.symm⟩)
      simp only [hkey, decide_true, Option.bind_some]
      cases hv : f.member? x with
      | none => exact hnone
      | some v => simp [Members.get?_cons]
    · simp only [hkey, decide_false]
      cases hv : f.member? x with
      | none => exact ih hfs
      | some v =>
        simp only [Option.map_some, Members.get?_cons, if_neg (Ne.symm hkey)]
        exact ih hfs

theorem get?_sortedMembers (r : Record α) (x : α) (h : r.keys.Nodup) (key : String) :
    (r.sortedMembers x).get? key = ((r.field? key).bind fun f => f.member? x).map Value.normal := by
  have hkeys : ((Value.normalMembers (r.members x)).map Prod.fst).Nodup := by
    rw [Value.normalMembers_eq_map, List.map_map]
    exact (r.keys_members_sublist x).nodup h
  rw [sortedMembers, Members.get?_sorted hkeys, Value.get?_normalMembers, get?_members r x h]

theorem mem_keys_of_mem (r : Record α) (x : α) {p : String × Value} (h : p ∈ r.sortedMembers x) :
    p.1 ∈ r.keys := by
  have hp := Members.mem_sorted h
  rw [Value.normalMembers_eq_map] at hp
  obtain ⟨q, hq, rfl⟩ := List.mem_map.mp hp
  exact (r.keys_members_sublist x).subset (List.mem_map.mpr ⟨q, hq, rfl⟩)

theorem get?_eq_none (r : Record α) (x : α) {key : String} (h : key ∉ r.keys) :
    (r.sortedMembers x).get? key = none := by
  cases hv : (r.sortedMembers x).get? key with
  | none => rfl
  | some v => exact absurd (r.mem_keys_of_mem x (Members.mem_of_get? hv)) h

end Mockup.Json.Record
