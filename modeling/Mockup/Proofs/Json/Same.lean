import Mathlib.Data.List.Forall2
import Mockup.Proofs.Json.Members

/-! Every value is the same as itself, real numbers included: none of them is undefined. Lists that
are the same are so item by item, and objects key by key. -/

namespace Mockup.Json

theorem Number.same_refl (n : Number) : n.same n = true := by
  cases n with
  | int i => simp [Number.same]
  | real x => simp [Number.same, Mockup.Number.Double.same]

namespace Value

mutual

theorem same_refl : ∀ v : Value, v.same v = true
  | .null => rfl
  | .bool _ | .text _ => by simp [same]
  | .number n => by rw [same, n.same_refl]
  | .list items => by rw [same, sameItems_refl items]
  | .object members => by rw [same, sameMembers_refl members]

theorem sameItems_refl : ∀ vs : List Value, sameItems vs vs = true
  | [] => by rw [sameItems]
  | v :: vs => by rw [sameItems, same_refl v, sameItems_refl vs, Bool.and_self]

theorem sameMembers_refl : ∀ ms : List (String × Value), sameMembers ms ms = true
  | [] => by rw [sameMembers]
  | (k, v) :: ms => by simp [sameMembers, same_refl v, sameMembers_refl ms]

end

theorem forall₂_of_sameItems {vs ws : List Value} (h : sameItems vs ws = true) :
    List.Forall₂ (fun v w => v.same w = true) vs ws := by
  induction vs generalizing ws with
  | nil =>
    cases ws with
    | nil => exact .nil
    | cons w ws => cases h
  | cons v vs ih =>
    cases ws with
    | nil => cases h
    | cons w ws =>
      rw [sameItems, Bool.and_eq_true] at h
      exact .cons h.1 (ih h.2)

theorem get?_of_sameMembers {m l : Members} {key : String} {v : Value}
    (h : sameMembers m l = true) (hv : m.get? key = some v) :
    ∃ w, l.get? key = some w ∧ v.same w = true := by
  induction m generalizing l with
  | nil => cases hv
  | cons p m ih =>
    cases l with
    | nil => cases h
    | cons q l =>
      obtain ⟨j, x⟩ := p
      obtain ⟨k, y⟩ := q
      rw [sameMembers, Bool.and_eq_true, Bool.and_eq_true, decide_eq_true_eq] at h
      obtain ⟨⟨rfl, hsame⟩, hmore⟩ := h
      rw [Members.get?_cons] at hv ⊢
      split_ifs at hv ⊢ with hkey
      · obtain rfl := Option.some.inj hv
        exact ⟨y, rfl, hsame⟩
      · exact ih hmore hv

end Value

end Mockup.Json
