import Mockup.Json.Schema
import Mockup.Proofs.Json.Members

/-! When a value violates nothing in a schema. -/

namespace Mockup.Json.Schema

def Accepts (schema : Schema) (v : Value) : Prop := schema.violations v = []

theorem accepts_text_iff {n : Nat} {s : String} :
    (Schema.text n).Accepts (.text s) ↔ n ≤ s.length := by
  rw [Accepts, violations]
  split <;> simp <;> omega

theorem accepts_text_zero (s : String) : (Schema.text 0).Accepts (.text s) :=
  accepts_text_iff.mpr (Nat.zero_le _)

theorem accepts_choice {names : List String} {s : String} (h : s ∈ names) :
    (Schema.choice names).Accepts (.text s) := by
  rw [Accepts, violations, if_pos (List.contains_iff_mem.mpr h)]

theorem accepts_list_iff {item : Schema} {n : Nat} {vs : List Value} :
    (Schema.list item n).Accepts (.list vs) ↔ (∀ v ∈ vs, item.Accepts v) ∧ n ≤ vs.length := by
  rw [Accepts, violations, List.append_eq_nil_iff, List.flatMap_eq_nil_iff]
  refine and_congr Iff.rfl ?_
  split <;> simp <;> omega

theorem propertyViolations_eq_nil_iff {ps : List (String × Schema)} {m : Members} :
    propertyViolations ps m = [] ↔ ∀ p ∈ ps, ∀ v ∈ m.get? p.1, p.2.Accepts v := by
  induction ps with
  | nil => simp [propertyViolations]
  | cons p ps ih =>
    rw [propertyViolations, List.append_eq_nil_iff, ih, List.forall_mem_cons]
    refine and_congr ?_ Iff.rfl
    unfold Members.get?
    cases m.lookup p.1 <;> simp [Accepts]

theorem accepts_object_iff {ps : List (String × Schema)} {required : List String} {m : Members} :
    (Schema.object ps required).Accepts (.object m) ↔
      (∀ p ∈ ps, ∀ v ∈ m.get? p.1, p.2.Accepts v) ∧ ∀ name ∈ required, (m.get? name).isSome := by
  rw [Accepts, violations, List.append_eq_nil_iff, propertyViolations_eq_nil_iff]
  refine and_congr Iff.rfl ?_
  simp [List.filter_eq_nil_iff, Members.get?]

theorem accepts_mapping_iff {member : Schema} {m : Members} :
    (Schema.mapping member).Accepts (.object m) ↔ ∀ p ∈ m, member.Accepts p.2 := by
  rw [Accepts, violations, List.flatMap_eq_nil_iff]
  rfl

end Mockup.Json.Schema
