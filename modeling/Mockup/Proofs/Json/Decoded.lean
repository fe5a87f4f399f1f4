import Mockup.Proofs.Json.Draft

/-! What decoders can read. A property of all that a decoder yields carries over to the lists,
entries and records that are read with it. -/

namespace Mockup.Json

open Reader

namespace Reader

variable {α : Type} {P : α → Prop}

theorem yields_mismatch (wanted : String) (P : α → Prop) : (mismatch wanted).Yields P := by
  intro cs x rest h
  unfold mismatch at h
  split at h
  · cases h
  -- The fault of every scalar is known only once the scalar has been read.
  · dsimp only at h
    split_ifs at h
    all_goals first | cases h | (split at h <;> cases h)

theorem Yields.atValue {r : Char → Reader α} (h : ∀ c, (r c).Yields P) : (atValue r).Yields P := by
  intro cs x rest hx
  unfold Reader.atValue at hx
  split at hx
  · cases hx
  · exact h _ _ x rest hx

theorem Yields.deeper {r : Nat → Reader α} (h : ∀ n, (r n).Yields P) (levels : Nat) :
    (deeper levels r).Yields P := by
  intro cs x rest hx
  unfold Reader.deeper at hx
  split at hx
  · cases hx
  · exact h _ _ x rest hx

theorem Yields.ite {p : Prop} [Decidable p] {r r' : Reader α} (h : r.Yields P) (h' : r'.Yields P) :
    (if p then r else r').Yields P := by
  split
  · exact h
  · exact h'

end Reader

variable {α β : Type} {P : α → Prop} {Q : β → Prop}

def Decoder.Yields (d : Decoder α) (P : α → Prop) : Prop := ∀ levels, (d.read levels).Yields P

namespace Decoder

variable {d : Decoder α}

theorem yields_true (d : Decoder α) : d.Yields fun _ => True := fun _ => Reader.yields_true _

theorem Yields.map {f : α → β} (h : d.Yields fun x => Q (f x)) : (d.map f).Yields Q :=
  fun levels => (h levels).map

theorem Yields.list (h : d.Yields P) : d.list.Yields fun xs => ∀ x ∈ xs, P x := by
  intro levels
  refine .atValue fun c => .ite (.deeper (fun n => (h n).items) levels) ?_
  exact yields_mismatch _ _

theorem Yields.optional (h : d.Yields P) : d.optional.Yields fun x => ∀ y ∈ x, P y := by
  intro levels cs x rest hx
  simp only [Decoder.optional] at hx
  split at hx
  · have hnone : ((letters ['u', 'l', 'l']).map fun _ => (none : Option α)).Yields
        fun x => ∀ y ∈ x, P y := .map fun _ _ _ _ => nofun
    exact hnone _ x rest hx
  · have hsome : ((d.read levels).map some).Yields fun x => ∀ y ∈ x, P y := by
      refine .map fun cs y rest hy z hz => ?_
      obtain rfl := Option.some.inj hz
      exact h levels cs y rest hy
    exact hsome _ x rest hx

theorem yields_object : object.Yields fun m => (Value.object m).WellFormed := by
  intro levels
  refine .atValue fun c => .ite (.deeper (fun n => ?_) levels) (yields_mismatch _ _)
  have hnil : (Value.object []).WellFormed := .object List.Pairwise.nil nofun
  refine Reader.Yields.members (P := fun m => (Value.object m).WellFormed) (fun m hm => ?_) [] hnil
  exact (Reader.yields_true _).andThen fun key _ => (Reader.yields_true _).andThen fun _ _ =>
    .map fun cs v rest hv => hm.set key (yields_value n cs v rest hv)

variable {key : String} {x : α} {m : List (String × α)}

theorem mem_setEntry {p : String × α} (h : p ∈ setEntry key x m) : p = (key, x) ∨ p ∈ m := by
  induction m with
  | nil => exact .inl (List.mem_singleton.mp h)
  | cons q rest ih =>
    obtain ⟨j, y⟩ := q
    simp only [setEntry] at h
    split_ifs at h <;> grind

theorem pairwise_setEntry (h : m.Pairwise fun a b => a.1 < b.1) (key : String) (x : α) :
    (setEntry key x m).Pairwise fun a b => a.1 < b.1 := by
  induction m with
  | nil => exact List.pairwise_singleton _ _
  | cons q rest ih =>
    obtain ⟨j, y⟩ := q
    obtain ⟨hhead, hrest⟩ := List.pairwise_cons.mp h
    simp only [setEntry]
    split_ifs with hlt heq
    · refine List.pairwise_cons.mpr ⟨fun p hp => ?_, h⟩
      rcases List.mem_cons.mp hp with rfl | hp
      · exact hlt
      · exact lt_trans hlt (hhead p hp)
    · subst heq
      exact List.pairwise_cons.mpr ⟨hhead, hrest⟩
    · refine List.pairwise_cons.mpr ⟨fun p hp => ?_, ih hrest⟩
      rcases mem_setEntry hp with rfl | hp
      · exact lt_of_le_of_ne (not_lt.mp hlt) (Ne.symm heq)
      · exact hhead p hp

theorem yields_entries (d : Decoder α) :
    (entries d).Yields fun m => m.Pairwise fun a b => a.1 < b.1 := by
  intro levels
  refine .atValue fun c => .ite (.deeper (fun n => ?_) levels) (yields_mismatch _ _)
  refine Reader.Yields.members (P := fun m : List (String × α) => m.Pairwise fun a b => a.1 < b.1)
    (fun m hm => ?_) [] List.Pairwise.nil
  exact (Reader.yields_true _).andThen fun key _ => (Reader.yields_true _).andThen fun _ _ =>
    .map fun _ x _ _ => pairwise_setEntry hm key x

theorem Yields.decode {text : String} {x : α} (h : d.Yields P) (hx : d.decode text = .ok x) :
    P x := by
  unfold Decoder.decode runAll at hx
  split at hx
  · next y rest hread =>
    unfold finish at hx
    split at hx
    · cases hx
      exact h _ _ x rest hread
    · cases hx
  · cases hx

end Decoder

namespace Field

def Keeps (f : Field α) (P : α → Prop) : Prop := f.update.Yields fun g => ∀ x, P x → P (g x)

variable {key : String} {d : Decoder β} {write : β → Value}

theorem keeps_required {get : α → β} {set : β → α → α} (h : d.Yields Q)
    (hset : ∀ v, Q v → ∀ x, P x → P (set v x)) : (required key d write get set).Keeps P :=
  .map fun levels cs v rest hv => hset v (h levels cs v rest hv)

theorem keeps_defaulted {get : α → β} {set : β → α → α} (h : d.Yields Q)
    (hset : ∀ v, Q v → ∀ x, P x → P (set v x)) : (defaulted key d write get set).Keeps P :=
  .map fun levels cs v rest hv => hset v (h levels cs v rest hv)

theorem keeps_optional {get : α → Option β} {set : Option β → α → α} (h : d.Yields Q)
    (hset : ∀ v, (∀ y ∈ v, Q y) → ∀ x, P x → P (set v x)) :
    (optional key d write get set).Keeps P :=
  .map fun levels cs v rest hv => hset v (h.optional levels cs v rest hv)

end Field

namespace Record

variable {r : Record α}

theorem yields_endPlaces {x : α} (hx : P x) : Reader.Yields (endPlaces x) P := by
  intro cs y rest hy
  unfold endPlaces at hy
  split at hy
  · cases hy
  · cases hy
    exact hx
  · split at hy <;> cases hy
  · cases hy

theorem yields_readPlaces {fs : List (Field α)} (h : ∀ f ∈ fs, f.Keeps P) (levels place : Nat)
    {x : α} (hx : P x) : (readPlaces r levels fs place x).Yields P := by
  induction fs generalizing place x with
  | nil => exact yields_endPlaces hx
  | cons f fs ih =>
    obtain ⟨hf, hfs⟩ := List.forall_mem_cons.mp h
    intro cs y rest hy
    unfold readPlaces at hy
    split at hy
    · cases hy
    · have hread : ((f.update.read levels).andThen fun g =>
          readPlaces r levels fs (place + 1) (g x)).Yields P :=
        (hf levels).andThen fun g hg => ih hfs (place + 1) (hg x hx)
      exact hread _ y rest hy
    · split at hy
      · exact ih hfs (place + 1) hx _ y rest hy
      · cases hy

theorem yields_readObject (hblank : P r.blank) (h : ∀ f ∈ r.fields, f.Keeps P) (levels : Nat) :
    (r.readObject levels).Yields P := by
  have hmembers : (Reader.members (r.readMember levels) ⟨r.blank, []⟩).Yields fun d =>
      (∀ k ∈ ([] : List String), k ∈ d.seen) ∧ P d.result :=
    .members (fun d hd => yields_readMember (fun f hf _ => h f hf levels) d hd) _ ⟨nofun, hblank⟩
  refine hmembers.andThen fun draft hdraft cs x rest hx => ?_
  split at hx
  · cases hx
  · cases hx
    exact hdraft.2

theorem yields_decoder (hblank : P r.blank) (h : ∀ f ∈ r.fields, f.Keeps P) :
    r.decoder.Yields P := by
  intro levels
  refine .atValue fun c => .ite (.deeper (fun n => ?_) levels)
    (.ite (.deeper (fun n => ?_) levels) (yields_mismatch _ _))
  · exact yields_readObject hblank h n
  · exact yields_readPlaces h n 0 hblank

end Record

end Mockup.Json
