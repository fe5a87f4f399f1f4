import Mathlib.Data.List.Sort
import Mathlib.Data.String.Basic
import Mockup.Json.Value

/-! Sorted members. Setting a member keeps members sorted and changes what is found at its key and
nowhere else; sorting members that are sorted changes nothing. -/

namespace Mockup.Json.Members

variable {m : Members} {key k : String} {v w : Value}

instance (m : Members) : Decidable m.Sorted :=
  inferInstanceAs (Decidable (m.Pairwise fun a b => a.1 < b.1))

@[simp] theorem get?_nil (key : String) : get? [] key = none := rfl

theorem get?_cons : get? ((k, w) :: m) key = if key = k then some w else get? m key := by
  rw [get?, List.lookup_cons]
  by_cases h : key = k
  · simp [h]
  · rw [if_neg h, beq_eq_false_iff_ne.mpr h, get?]

theorem get?_set (key : String) (v : Value) (m : Members) (k : String) :
    (set key v m).get? k = if k = key then some v else m.get? k := by
  induction m with
  | nil => rw [set, get?_cons]
  | cons p rest ih =>
    obtain ⟨j, w⟩ := p
    simp only [set]
    split_ifs with hlt hkey heq heq
    all_goals simp only [get?_cons, ih]
    all_goals grind

theorem erase_set (m : Members) (key : String) (v : Value) :
    erase (set key v m) key = erase m key := by
  induction m with
  | nil => simp [set, erase]
  | cons p rest ih =>
    obtain ⟨k, w⟩ := p
    rw [set]
    unfold erase at ih ⊢
    split_ifs with hlt heq
    · simp
    · subst heq
      simp
    · rw [List.filter_cons, List.filter_cons, ih]

theorem mem_set {p : String × Value} (h : p ∈ set key v m) : p = (key, v) ∨ p ∈ m := by
  induction m with
  | nil => simpa [set] using h
  | cons q rest ih =>
    obtain ⟨j, w⟩ := q
    simp only [set] at h
    split_ifs at h <;> grind

theorem Sorted.set (h : Sorted m) (key : String) (v : Value) : Sorted (set key v m) := by
  induction m with
  | nil => exact List.pairwise_singleton _ _
  | cons q rest ih =>
    obtain ⟨j, w⟩ := q
    obtain ⟨hhead, hrest⟩ := List.pairwise_cons.mp h
    simp only [Members.set]
    split_ifs with hlt heq
    · refine List.pairwise_cons.mpr ⟨fun p hp => ?_, h⟩
      rcases List.mem_cons.mp hp with rfl | hp
      · exact hlt
      · exact lt_trans hlt (hhead p hp)
    · subst heq
      exact List.pairwise_cons.mpr ⟨hhead, hrest⟩
    · refine List.pairwise_cons.mpr ⟨fun p hp => ?_, ih hrest⟩
      rcases mem_set hp with rfl | hp
      · exact lt_of_le_of_ne (not_lt.mp hlt) (Ne.symm heq)
      · exact hhead p hp

theorem sorted_sorted (m : Members) : Sorted (sorted m) := by
  have key (acc : Members) (hacc : Sorted acc) :
      Sorted (m.foldl (fun acc p => set p.1 p.2 acc) acc) := by
    induction m generalizing acc with
    | nil => exact hacc
    | cons p rest ih => exact ih _ (hacc.set _ _)
  exact key [] List.Pairwise.nil

theorem set_of_forall_lt (h : ∀ p ∈ m, p.1 < key) : set key v m = m ++ [(key, v)] := by
  induction m with
  | nil => rfl
  | cons p rest ih =>
    obtain ⟨j, w⟩ := p
    have hj : j < key := h _ List.mem_cons_self
    rw [set, if_neg (lt_asymm hj), if_neg hj.ne', ih fun p hp => h p (List.mem_cons_of_mem _ hp)]
    rfl

theorem Sorted.sorted_eq (h : Sorted m) : sorted m = m := by
  -- each member is set after all that were set before it
  have key (acc : Members) (hacc : ∀ p ∈ acc, ∀ q ∈ m, p.1 < q.1) :
      m.foldl (fun acc p => Members.set p.1 p.2 acc) acc = acc ++ m := by
    induction m generalizing acc with
    | nil => simp
    | cons p rest ih =>
      obtain ⟨hhead, hrest⟩ := List.pairwise_cons.mp h
      rw [List.foldl_cons, set_of_forall_lt fun q hq => hacc q hq p List.mem_cons_self,
        ih hrest, List.append_assoc]
      · rfl
      · intro a ha q hq
        rcases List.mem_append.mp ha with ha | ha
        · exact hacc a ha q (List.mem_cons_of_mem _ hq)
        · obtain rfl := List.mem_singleton.mp ha
          exact hhead q hq
  exact key [] (by simp)

theorem Sorted.set_eq_self (h : Sorted m) (hget : m.get? key = some v) :
    Members.set key v m = m := by
  induction m with
  | nil => cases hget
  | cons p rest ih =>
    obtain ⟨j, w⟩ := p
    obtain ⟨hhead, hrest⟩ := List.pairwise_cons.mp h
    rw [get?_cons] at hget
    split_ifs at hget with heq
    · obtain rfl := Option.some.inj hget
      rw [Members.set, heq, if_neg (lt_irrefl _), if_pos rfl]
    · have hmem : (key, v) ∈ rest := by
        obtain ⟨l₁, l₂, rfl, -⟩ := List.lookup_eq_some_iff.mp hget
        simp
      rw [Members.set, if_neg (lt_asymm (hhead _ hmem)), if_neg heq, ih hrest hget]

theorem mem_of_get? (h : m.get? key = some v) : (key, v) ∈ m := by
  obtain ⟨l₁, l₂, rfl, -⟩ := List.lookup_eq_some_iff.mp h
  simp

theorem get?_of_mem (hm : (m.map Prod.fst).Nodup) (h : (key, v) ∈ m) : m.get? key = some v := by
  induction m with
  | nil => cases h
  | cons p rest ih =>
    obtain ⟨j, w⟩ := p
    obtain ⟨hj, hrest⟩ := List.nodup_cons.mp hm
    rw [get?_cons]
    rcases List.mem_cons.mp h with heq | h
    · cases heq
      exact if_pos rfl
    · have hne : key ≠ j := fun e => hj (List.mem_map.mpr ⟨(key, v), h, e⟩)
      rw [if_neg hne, ih hrest h]

theorem get?_eq_none (h : key ∉ m.map Prod.fst) : m.get? key = none := by
  cases hv : m.get? key with
  | none => rfl
  | some v => exact absurd (List.mem_map.mpr ⟨_, mem_of_get? hv, rfl⟩) h

theorem Sorted.nodup_keys (h : Sorted m) : (m.map Prod.fst).Nodup := by
  rw [List.Nodup, List.pairwise_map]
  exact h.imp ne_of_lt

theorem Sorted.eq_of_get? {n : Members} (hm : Sorted m) (hn : Sorted n)
    (h : ∀ key, m.get? key = n.get? key) : m = n := by
  have : Std.Irrefl fun a b : String × Value => a.1 < b.1 := ⟨fun a => lt_irrefl a.1⟩
  have : Std.Antisymm fun a b : String × Value => a.1 < b.1 :=
    ⟨fun _ _ hab hba => absurd hab (lt_asymm hba)⟩
  refine List.Pairwise.eq_of_mem_iff hm hn fun p => ⟨fun hp => ?_, fun hp => ?_⟩
  · exact mem_of_get? ((h p.1).symm.trans (get?_of_mem hm.nodup_keys hp))
  · exact mem_of_get? ((h p.1).trans (get?_of_mem hn.nodup_keys hp))

theorem mem_sorted {p : String × Value} (h : p ∈ sorted m) : p ∈ m := by
  have key (acc : Members) (hp : p ∈ m.foldl (fun acc p => set p.1 p.2 acc) acc) :
      p ∈ acc ∨ p ∈ m := by
    clear h
    induction m generalizing acc with
    | nil => exact .inl hp
    | cons q rest ih =>
      rcases ih _ hp with hp | hp
      · rcases mem_set hp with rfl | hp
        · exact .inr List.mem_cons_self
        · exact .inl hp
      · exact .inr (List.mem_cons_of_mem _ hp)
  exact (key [] h).resolve_left List.not_mem_nil

theorem get?_sorted (h : (m.map Prod.fst).Nodup) (key : String) :
    (sorted m).get? key = m.get? key := by
  -- the members set so far have other keys than those to come, so that nothing is replaced
  have go (acc : Members) (hacc : ∀ p ∈ m, acc.get? p.1 = none) :
      (m.foldl (fun acc p => set p.1 p.2 acc) acc).get? key = (acc.get? key).or (m.get? key) := by
    induction m generalizing acc with
    | nil => simp
    | cons p rest ih =>
      obtain ⟨j, w⟩ := p
      obtain ⟨hj, hrest⟩ := List.nodup_cons.mp h
      rw [List.foldl_cons, ih hrest, get?_set, get?_cons]
      · by_cases hkey : key = j
        · rw [if_pos hkey, if_pos hkey, hkey, hacc (j, w) List.mem_cons_self]
          rfl
        · rw [if_neg hkey, if_neg hkey]
      · intro q hq
        have hne : q.1 ≠ j := fun e => hj (List.mem_map.mpr ⟨q, hq, e⟩)
        rw [get?_set, if_neg hne]
        exact hacc q (List.mem_cons_of_mem _ hq)
  exact go [] (by simp)

end Mockup.Json.Members
