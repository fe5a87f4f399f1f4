import Mockup.Json.Reader.Value
import Mockup.Proofs.Json.Members

/-! Well-formed values, in which all objects have their members sorted. Sorting the members of a
well-formed value changes nothing, and every value that is read from a text is well-formed. -/

namespace Mockup.Json

namespace Value

inductive WellFormed : Value → Prop where
  | null : WellFormed .null
  | bool (b : Bool) : WellFormed (.bool b)
  | number (n : Number) : WellFormed (.number n)
  | text (s : String) : WellFormed (.text s)
  | list {items : List Value} : (∀ v ∈ items, WellFormed v) → WellFormed (.list items)
  | object {m : Members} : m.Sorted → (∀ p ∈ m, WellFormed p.2) → WellFormed (.object m)

theorem WellFormed.items {vs : List Value} (h : (Value.list vs).WellFormed) :
    ∀ v ∈ vs, v.WellFormed := by
  cases h with
  | list h => exact h

theorem WellFormed.sorted {m : Members} (h : (Value.object m).WellFormed) : m.Sorted := by
  cases h with
  | object h _ => exact h

theorem WellFormed.members {m : Members} (h : (Value.object m).WellFormed) :
    ∀ p ∈ m, p.2.WellFormed := by
  cases h with
  | object _ h => exact h

theorem WellFormed.get? {m : Members} {key : String} {v : Value} (h : (Value.object m).WellFormed)
    (hv : m.get? key = some v) : v.WellFormed := h.members _ (Members.mem_of_get? hv)

theorem WellFormed.set {m : Members} {v : Value} (h : (Value.object m).WellFormed) (key : String)
    (hv : v.WellFormed) : (Value.object (Members.set key v m)).WellFormed := by
  refine .object (h.sorted.set key v) fun p hp => ?_
  rcases Members.mem_set hp with rfl | hp
  · exact hv
  · exact h.members p hp

theorem wellFormed_texts (xs : List String) : (texts xs).WellFormed := by
  refine .list fun v hv => ?_
  obtain ⟨s, -, rfl⟩ := List.mem_map.mp hv
  exact .text s

theorem normalItems_eq_map (vs : List Value) : normalItems vs = vs.map normal := by
  induction vs with
  | nil => rfl
  | cons v vs ih => rw [normalItems, ih, List.map_cons]

theorem normalMembers_eq_map (m : Members) :
    normalMembers m = m.map fun p => (p.1, p.2.normal) := by
  induction m with
  | nil => rfl
  | cons p m ih => rw [normalMembers, ih, List.map_cons]

theorem WellFormed.normal_eq {v : Value} (h : v.WellFormed) : v.normal = v := by
  induction h with
  | null => rfl
  | bool b => rfl
  | number n => rfl
  | text s => rfl
  | list _ ih => rw [normal, normalItems_eq_map, List.map_congr_left ih, List.map_id']
  | @object m hsorted _ ih =>
    have hm : m.map (fun p => (p.1, p.2.normal)) = m := by
      rw [List.map_congr_left fun p hp => by rw [ih p hp], List.map_id']
    rw [normal, normalMembers_eq_map, hm, hsorted.sorted_eq]

theorem get?_normalMembers (m : Members) (key : String) :
    Members.get? (normalMembers m) key = (Members.get? m key).map normal := by
  induction m with
  | nil => rfl
  | cons p m ih =>
    rw [normalMembers, Members.get?_cons, Members.get?_cons, ih]
    split <;> rfl

end Value

namespace Reader

variable {α β σ : Type}

def Yields (r : Reader α) (P : α → Prop) : Prop := ∀ cs x rest, r cs = .ok (x, rest) → P x

variable {P : α → Prop} {Q : β → Prop}

theorem Yields.map {r : Reader α} {f : α → β} (h : r.Yields fun x => Q (f x)) :
    (r.map f).Yields Q := by
  intro cs y rest hy
  simp only [Reader.map] at hy
  split at hy
  · next x r' hx =>
    cases hy
    exact h cs x rest hx
  · cases hy

theorem Yields.andThen {r : Reader α} {f : α → Reader β} (h : r.Yields P)
    (hf : ∀ x, P x → (f x).Yields Q) : (r.andThen f).Yields Q := by
  intro cs y rest hy
  simp only [Reader.andThen] at hy
  split at hy
  · next x r' hx => exact hf x (h cs x r' hx) r' y rest hy
  · cases hy

theorem yields_true (r : Reader α) : r.Yields fun _ => True := fun _ _ _ _ => trivial

theorem Yields.cons {r : Reader (List α)} {x : α} (hx : P x)
    (h : r.Yields fun xs => ∀ y ∈ xs, P y) :
    (r.map (x :: ·)).Yields fun xs => ∀ y ∈ xs, P y :=
  .map fun cs xs rest hxs y hy => by
    rcases List.mem_cons.mp hy with rfl | hy
    · exact hx
    · exact h cs xs rest hxs y hy

theorem Yields.moreItems {item : Reader α} (h : item.Yields P) (fuel : Nat) :
    (moreItems item fuel).Yields fun xs => ∀ x ∈ xs, P x := by
  induction fuel with
  | zero =>
    intro cs xs rest hxs
    cases hxs
  | succ fuel ih =>
    have hmore : (item.andThen fun x => (Reader.moreItems item fuel).map (x :: ·)).Yields
        fun xs => ∀ x ∈ xs, P x := h.andThen fun x hx => ih.cons hx
    intro cs xs rest hxs
    simp only [Reader.moreItems] at hxs
    split at hxs
    · cases hxs
    · cases hxs
      nofun
    · split at hxs
      · cases hxs
      · cases hxs
      · exact hmore _ xs rest hxs
    · cases hxs

theorem Yields.items {item : Reader α} (h : item.Yields P) :
    (items item).Yields fun xs => ∀ x ∈ xs, P x := by
  have hmore : (item.andThen fun x =>
      (fun r => ((Reader.moreItems item (r.length + 1)).map (x :: ·)) r)).Yields
        fun xs => ∀ x ∈ xs, P x := h.andThen fun x hx r => (h.moreItems _).cons hx r
  intro cs xs rest hxs
  simp only [Reader.items] at hxs
  split at hxs
  · cases hxs
  · cases hxs
    nofun
  · exact hmore _ xs rest hxs

theorem Yields.moreMembers {member : σ → Reader σ} {P : σ → Prop}
    (h : ∀ s, P s → (member s).Yields P) (fuel : Nat) (s : σ) (hs : P s) :
    (moreMembers member fuel s).Yields P := by
  induction fuel generalizing s with
  | zero =>
    intro cs t rest ht
    cases ht
  | succ fuel ih =>
    intro cs t rest ht
    simp only [Reader.moreMembers] at ht
    split at ht
    · cases ht
    · cases ht
      exact hs
    · split at ht
      · cases ht
      · exact (h s hs).andThen (fun s hs => ih s hs) _ t rest ht
      · cases ht
      · cases ht
    · cases ht

theorem Yields.members {member : σ → Reader σ} {P : σ → Prop}
    (h : ∀ s, P s → (member s).Yields P) (s : σ) (hs : P s) : (members member s).Yields P := by
  intro cs t rest ht
  simp only [Reader.members] at ht
  split at ht
  · cases ht
  · cases ht
    exact hs
  · exact (h s hs).andThen (f := fun s rest => Reader.moreMembers member (rest.length + 1) s rest)
      (fun s hs r => Yields.moreMembers h _ s hs r) _ t rest ht
  · cases ht

theorem yields_scalar (c : Char) : Reader.Yields (scalar c) Value.WellFormed := by
  intro cs v rest hv
  have hmap {α : Type} {r : Reader α} {f : α → Value} (hf : ∀ x, (f x).WellFormed) :
      (r.map f).Yields Value.WellFormed := .map fun _ x _ _ => hf x
  simp only [scalar] at hv
  split_ifs at hv
  · exact hmap (fun _ => .null) _ v rest hv
  · exact hmap (fun _ => .bool true) _ v rest hv
  · exact hmap (fun _ => .bool false) _ v rest hv
  · exact hmap (fun s => .text s) _ v rest hv
  · exact hmap (fun n => .number n) _ v rest hv

theorem yields_value (levels : Nat) : (value levels).Yields Value.WellFormed := by
  -- by the levels left, since items and members are read with one level less
  induction levels with
  | zero =>
    intro cs v rest hv
    simp only [value] at hv
    split at hv
    · cases hv
    · split at hv
      · cases hv
      · exact yields_scalar _ _ v rest hv
  | succ levels ih =>
    have hmember (m : Members) (hm : (Value.object m).WellFormed) :
        (freeMember (value levels) m).Yields fun m => (Value.object m).WellFormed :=
      (yields_true _).andThen fun key _ => (yields_true _).andThen fun _ _ =>
        .map fun cs v rest hv => hm.set key (ih cs v rest hv)
    have hnil : (Value.object []).WellFormed := .object List.Pairwise.nil (by simp)
    intro cs v rest hv
    simp only [value] at hv
    split at hv
    · cases hv
    · split_ifs at hv
      · exact Yields.map (r := items (value levels)) (f := Value.list)
          (fun cs xs rest hxs => .list (ih.items cs xs rest hxs)) _ v rest hv
      · exact Yields.map (f := Value.object) (Yields.members hmember [] hnil) _ v rest hv
      · exact yields_scalar _ _ v rest hv

end Reader

theorem Value.wellFormed_of_parse {s : String} {v : Value} (h : Value.parse s = .ok v) :
    v.WellFormed := by
  simp only [Value.parse, Reader.runAll] at h
  split at h
  · next x rest hx =>
    simp only [Reader.finish] at h
    split at h
    · cases h
      exact Reader.yields_value _ _ v rest hx
    · cases h
  · cases h

end Mockup.Json
