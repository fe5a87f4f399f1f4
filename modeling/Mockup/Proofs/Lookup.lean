import Mathlib.Data.List.Basic

/-! Lists of pairs as maps: what is found under a key when pairs are left out, put in or given
other keys. -/

namespace Mockup

variable {α β γ : Type} [BEq α] [LawfulBEq α]

theorem lookup_filter (keep : α → Bool) (xs : List (α × β)) (k : α) :
    (xs.filter fun p => keep p.1).lookup k = if keep k then xs.lookup k else none := by
  induction xs with
  | nil => simp
  | cons p rest ih =>
    obtain ⟨j, x⟩ := p
    by_cases hkey : k = j
    · subst hkey
      by_cases hkeep : keep k
      · simp [hkeep]
      · simp [hkeep, ih]
    · have hne : (k == j) = false := beq_eq_false_iff_ne.mpr hkey
      by_cases hkeep : keep j
      · simp [hkeep, List.lookup_cons, hne, ih]
      · simp [hkeep, List.lookup_cons, hne, ih]

theorem lookup_put [DecidableEq α] (k : α) (x : β) (xs : List (α × β)) (j : α) :
    ((k, x) :: xs.filter fun p => p.1 ≠ k).lookup j = if j = k then some x else xs.lookup j := by
  rw [List.lookup_cons]
  by_cases hkey : j = k
  · simp [hkey]
  · have hfilter := lookup_filter (fun i => decide (i ≠ k)) xs j
    rw [beq_eq_false_iff_ne.mpr hkey, if_neg hkey, hfilter, if_pos (decide_eq_true hkey)]

theorem mem_of_lookup {xs : List (α × β)} {k : α} {x : β} (h : xs.lookup k = some x) :
    (k, x) ∈ xs := by
  obtain ⟨before, after, hsplit, -⟩ := List.lookup_eq_some_iff.mp h
  rw [hsplit]
  exact List.mem_append_right _ List.mem_cons_self

theorem lookup_of_mem {xs : List (α × β)} (hkeys : (xs.map Prod.fst).Nodup) {k : α} {x : β}
    (h : (k, x) ∈ xs) : xs.lookup k = some x := by
  induction xs with
  | nil => cases h
  | cons p rest ih =>
    obtain ⟨hp, hrest⟩ := List.nodup_cons.mp hkeys
    rw [List.lookup_cons]
    rcases List.mem_cons.mp h with rfl | h
    · rw [beq_self_eq_true]
    · have hne : k ≠ p.1 := fun heq => hp (heq ▸ List.mem_map_of_mem (f := Prod.fst) h)
      rw [beq_eq_false_iff_ne.mpr hne]
      exact ih hrest h

end Mockup
