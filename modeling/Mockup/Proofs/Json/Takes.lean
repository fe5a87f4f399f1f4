import Mockup.Proofs.Json.Record
import Mockup.Proofs.Json.Schema

/-! Decoders that take what a schema accepts. What such a decoder makes of a value is written as the
value was, without the members under keys that a record has no field for. -/

namespace Mockup.Json

variable {α β : Type}

def Value.onItems (view : Value → Value) : Value → Value
  | .list vs => .list (vs.map view)
  | v => v

def Record.pruned (r : Record α) (view : String → Value → Value) : Value → Value
  | .object m => .object ((m.filter fun p => p.1 ∈ r.keys).map fun p => (p.1, view p.1 p.2))
  | v => v

/-- The decoder reads all that the schema accepts, and what it reads is written as the view of the
value, which the schema accepts as well. -/
def Decoder.Takes (d : Decoder α) (write : α → Value) (schema : Schema) (view : Value → Value) :
    Prop :=
  ∀ v : Value, v.WellFormed → schema.Accepts v →
    schema.Accepts (view v) ∧ ∃ x, d.ofValue? v = some x ∧ (write x).normal = view v

def Field.Takes (f : Field α) (schema : Schema) (view : Value → Value) : Prop :=
  ∀ v : Value, v.WellFormed → schema.Accepts v →
    schema.Accepts (view v) ∧
      ∃ g, f.update.ofValue? v = some g ∧ ∀ x, (f.member? (g x)).map Value.normal = some (view v)

/-- Reading the one field leaves alone what is written for the other. -/
def Field.Spares (f f' : Field α) : Prop :=
  ∀ v g, f.update.ofValue? v = some g → ∀ x, f'.member? (g x) = f'.member? x

def Record.Independent (r : Record α) : Prop :=
  ∀ f ∈ r.fields, ∀ f' ∈ r.fields, f'.key ≠ f.key → f.Spares f'

namespace Members

variable {m : Members} {view : String → Value → Value}

theorem get?_filter_map (keys : List String) (m : Members) (key : String) :
    get? ((m.filter fun p => p.1 ∈ keys).map fun p => (p.1, view p.1 p.2)) key =
      if key ∈ keys then (m.get? key).map (view key) else none := by
  induction m with
  | nil => simp
  | cons p rest ih =>
    obtain ⟨j, w⟩ := p
    rw [List.filter_cons]
    by_cases hj : j ∈ keys
    · simp only [hj, decide_true, if_true, List.map_cons, get?_cons, ih]
      by_cases hkey : key = j
      · simp [hkey, hj]
      · simp [hkey]
    · simp only [hj, decide_false, if_neg Bool.false_ne_true, get?_cons, ih]
      by_cases hkey : key = j
      · simp [hkey, hj]
      · simp [hkey]

theorem Sorted.filter_map (h : Sorted m) (keys : List String) :
    Sorted ((m.filter fun p => p.1 ∈ keys).map fun p => (p.1, view p.1 p.2)) :=
  List.pairwise_map.mpr (h.filter _)

end Members

namespace Schema

variable {v : Value}

theorem Accepts.of_text {n : Nat} (h : (text n).Accepts v) : ∃ s, v = .text s := by
  cases v with
  | text s => exact ⟨s, rfl⟩
  | _ => cases h

theorem Accepts.of_choice {names : List String} (h : (choice names).Accepts v) :
    ∃ s ∈ names, v = .text s := by
  cases v with
  | text s =>
    rw [Accepts, violations] at h
    split at h
    · next hs => exact ⟨s, List.contains_iff_mem.mp hs, rfl⟩
    · cases h
  | _ => cases h

theorem Accepts.of_list {item : Schema} {n : Nat} (h : (list item n).Accepts v) :
    ∃ vs, v = .list vs := by
  cases v with
  | list vs => exact ⟨vs, rfl⟩
  | _ => cases h

theorem Accepts.of_object {ps : List (String × Schema)} {required : List String}
    (h : (object ps required).Accepts v) : ∃ m, v = .object m := by
  cases v with
  | object m => exact ⟨m, rfl⟩
  | _ => cases h

theorem Accepts.of_mapping {member : Schema} (h : (mapping member).Accepts v) :
    ∃ m, v = .object m := by
  cases v with
  | object m => exact ⟨m, rfl⟩
  | _ => cases h

end Schema

theorem exists_mapM {γ δ : Type} {f : β → Option γ} {k : γ → δ} {j : β → δ} {vs : List β}
    (h : ∀ v ∈ vs, ∃ x, f v = some x ∧ k x = j v) :
    ∃ xs, vs.mapM f = some xs ∧ xs.map k = vs.map j := by
  induction vs with
  | nil => exact ⟨[], rfl, rfl⟩
  | cons v vs ih =>
    obtain ⟨hv, hvs⟩ := List.forall_mem_cons.mp h
    obtain ⟨x, hx, hkx⟩ := hv
    obtain ⟨xs, hxs, hkxs⟩ := ih hvs
    exact ⟨x :: xs, by rw [List.mapM_cons, hx, hxs]; rfl, by rw [List.map_cons, hkx, hkxs]; rfl⟩

namespace Decoder

variable {d : Decoder α} {write : α → Value} {schema : Schema} {view : Value → Value}

theorem takes_text (n : Nat) : text.Takes .text (.text n) id := by
  intro v _ h
  obtain ⟨s, rfl⟩ := h.of_text
  exact ⟨h, s, rfl, rfl⟩

theorem Takes.list (h : d.Takes write schema view) (n : Nat) :
    (list d).Takes (fun xs => .list (xs.map write)) (.list schema n) (Value.onItems view) := by
  intro v hv haccepts
  obtain ⟨vs, rfl⟩ := haccepts.of_list
  obtain ⟨hitems, hlength⟩ := Schema.accepts_list_iff.mp haccepts
  have htakes (v : Value) (hmem : v ∈ vs) := h v (hv.items v hmem) (hitems v hmem)
  obtain ⟨xs, hxs, hwrite⟩ := exists_mapM fun v hmem => (htakes v hmem).2
  refine ⟨Schema.accepts_list_iff.mpr ⟨List.forall_mem_map.mpr fun v hmem => (htakes v hmem).1,
    by rwa [List.length_map]⟩, xs, hxs, ?_⟩
  rw [Value.normal, Value.normalItems_eq_map, List.map_map]
  exact congrArg Value.list hwrite

theorem onItems_id : Value.onItems id = id := by
  funext v
  cases v with
  | list vs => exact congrArg Value.list (List.map_id vs)
  | _ => rfl

theorem takes_texts (n : Nat) : texts.Takes .texts (.list (.text n) 0) id :=
  onItems_id ▸ (takes_text n).list 0

theorem Takes.entries (h : d.Takes write schema id) :
    (entries d).Takes (fun m => .object (m.map fun p => (p.1, write p.2))) (.mapping schema)
      id := by
  intro v hv haccepts
  obtain ⟨m, rfl⟩ := haccepts.of_mapping
  have hmembers := Schema.accepts_mapping_iff.mp haccepts
  have hread : ∀ p ∈ m, ∃ q, ((d.ofValue? p.2).map fun x => (p.1, x)) = some q ∧
      (q.1, (write q.2).normal) = p := by
    intro p hp
    obtain ⟨x, hx, hwrite⟩ := (h p.2 (hv.members p hp) (hmembers p hp)).2
    exact ⟨(p.1, x), by rw [hx]; rfl, by rw [hwrite]; rfl⟩
  obtain ⟨cells, hcells, hwrite⟩ := exists_mapM (j := id) hread
  refine ⟨haccepts, cells, hcells, ?_⟩
  rw [List.map_id] at hwrite
  rw [Value.normal, Value.normalMembers_eq_map, List.map_map]
  exact congrArg Value.object ((congrArg Members.sorted hwrite).trans hv.sorted.sorted_eq)

theorem takes_object : object.Takes .object (.object [] []) id := by
  intro v hv h
  obtain ⟨m, rfl⟩ := h.of_object
  exact ⟨h, m, rfl, hv.normal_eq⟩

end Decoder

namespace Field

variable {f f' : Field α} {key : String} {d : Decoder β} {write : β → Value} {schema : Schema}
  {view : Value → Value}

theorem takes_required {get : α → β} {set : β → α → α} (h : d.Takes write schema view)
    (hget : ∀ y x, get (set y x) = y) : (required key d write get set).Takes schema view := by
  intro v hv haccepts
  obtain ⟨hview, y, hy, hwrite⟩ := h v hv haccepts
  refine ⟨hview, set y, congrArg (Option.map set) hy, fun x => ?_⟩
  show some (write (get (set y x))).normal = some (view v)
  rw [hget, hwrite]

theorem takes_defaulted {get : α → β} {set : β → α → α} (h : d.Takes write schema view)
    (hget : ∀ y x, get (set y x) = y) : (defaulted key d write get set).Takes schema view := by
  have hrequired : (required key d write get set).Takes schema view := takes_required h hget
  exact hrequired

/-- The schema of a field that may be left out has to refuse `null`, which says that it is left
out. -/
theorem takes_optional {get : α → Option β} {set : Option β → α → α} (h : d.Takes write schema view)
    (hnull : ¬ schema.Accepts .null) (hget : ∀ y x, get (set y x) = y) :
    (optional key d write get set).Takes schema view := by
  intro v hv haccepts
  obtain ⟨hview, y, hy, hwrite⟩ := h v hv haccepts
  have hread : d.optional.ofValue? v = some (some y) := by
    cases v with
    | null => exact absurd haccepts hnull
    | _ => exact congrArg (Option.map some) hy
  refine ⟨hview, set (some y), congrArg (Option.map set) hread, fun x => ?_⟩
  show ((get (set (some y) x)).map write).map Value.normal = some (view v)
  rw [hget, ← hwrite]
  rfl

theorem spares_of_update {set : β → α → α} (hupdate : f.update = d.map set)
    (h : ∀ y x, f'.member? (set y x) = f'.member? x) : f.Spares f' := by
  intro v g hg x
  rw [hupdate] at hg
  obtain ⟨y, -, rfl⟩ := Option.map_eq_some_iff.mp hg
  exact h y x

end Field

namespace Record

/-- The record and the schema of an object agree: each property has a field that takes it, each
field a property, and a field that has to be there or is always written is required. -/
structure Suits (r : Record α) (properties : List (String × Schema)) (required : List String)
    (view : String → Value → Value) : Prop where
  nodup : r.keys.Nodup
  independent : r.Independent
  takes : ∀ p ∈ properties, ∃ f, r.field? p.1 = some f ∧ f.Takes p.2 (view p.1)
  listed : ∀ f ∈ r.fields, f.key ∈ properties.map Prod.fst
  needed : ∀ name ∈ required, name ∈ r.keys
  absent : ∀ f ∈ r.fields,
    f.key ∈ required ∨ f.absence ≠ .refused ∧ (f.member? r.blank).isNone

variable {r : Record α} {view : String → Value → Value} {properties : List (String × Schema)}
  {required : List String} {m : Members}

/-- Each member sets what is written for its own field, so that at the end every field is written as
its member says, or as before if it has none. -/
theorem exists_updateOfMembers (hnodup : r.keys.Nodup) (hspares : r.Independent)
    (hm : (m.map Prod.fst).Nodup)
    (hreads : ∀ p ∈ m, ∀ f ∈ r.field? p.1, ∃ g, f.update.ofValue? p.2 = some g ∧
      ∀ x, (f.member? (g x)).map Value.normal = some (view p.1 p.2)) (x : α) :
    ∃ s, r.updateOfMembers m x = some s ∧ ∀ f ∈ r.fields, (f.member? s).map Value.normal =
      ((m.get? f.key).map (view f.key)).or ((f.member? x).map Value.normal) := by
  induction m generalizing x with
  | nil => exact ⟨x, rfl, fun _ _ => rfl⟩
  | cons p rest ih =>
    obtain ⟨key, v⟩ := p
    obtain ⟨hkey, hrest⟩ := List.nodup_cons.mp hm
    obtain ⟨hfirst, hlater⟩ := List.forall_mem_cons.mp hreads
    cases hfield : r.field? key with
    | none =>
      obtain ⟨s, hs, hmembers⟩ := ih hrest hlater x
      refine ⟨s, by simpa only [updateOfMembers, hfield] using hs, fun f hf => ?_⟩
      have hne : f.key ≠ key := by
        rintro rfl
        rw [field?_of_mem hnodup hf] at hfield
        cases hfield
      rw [hmembers f hf, Members.get?_cons, if_neg hne]
    | some f₀ =>
      obtain ⟨hf₀, rfl⟩ := mem_of_field? hfield
      obtain ⟨g, hg, hset⟩ := hfirst f₀ hfield
      obtain ⟨s, hs, hmembers⟩ := ih hrest hlater (g x)
      refine ⟨s, by simpa only [updateOfMembers, hfield, hg, Option.bind_some] using hs,
        fun f hf => ?_⟩
      rw [hmembers f hf, Members.get?_cons]
      by_cases heq : f.key = f₀.key
      · rw [if_pos heq, eq_of_key_eq hnodup hf hf₀ heq, Members.get?_eq_none hkey, hset x]
        rfl
      · rw [if_neg heq, hspares f₀ hf₀ f hf heq v g hg x]

namespace Suits

variable (h : r.Suits properties required view)

include h

theorem reads_member (hm : (Value.object m).WellFormed)
    (haccepts : (Schema.object properties required).Accepts (.object m)) :
    ∀ p ∈ m, ∀ f ∈ r.field? p.1, ∃ g, f.update.ofValue? p.2 = some g ∧
      ∀ x, (f.member? (g x)).map Value.normal = some (view p.1 p.2) := by
  intro p hp f hfield
  obtain ⟨hf, hkey⟩ := mem_of_field? hfield
  obtain ⟨q, hq, hname⟩ := List.mem_map.mp (h.listed f hf)
  have hq' : q.1 = p.1 := hname.trans hkey
  obtain ⟨f', hfield', htakes⟩ := h.takes q hq
  have hsame : f' = f := by
    rw [hq', hfield] at hfield'
    exact (Option.some.inj hfield').symm
  have hv : Members.get? m q.1 = some p.2 := hq' ▸ Members.get?_of_mem hm.sorted.nodup_keys hp
  have hmember := (Schema.accepts_object_iff.mp haccepts).1 q hq p.2 hv
  have hreads := (htakes p.2 (hm.members p hp) hmember).2
  rwa [hsame, hq'] at hreads

theorem missing?_eq_none (haccepts : (Schema.object properties required).Accepts (.object m)) :
    r.missing? (m.map Prod.fst) = none := by
  refine Record.missing?_eq_none fun f hf habsence => ?_
  rcases h.absent f hf with hneeded | ⟨hallowed, -⟩
  · have hpresent := (Schema.accepts_object_iff.mp haccepts).2 f.key hneeded
    obtain ⟨v, hv⟩ := Option.isSome_iff_exists.mp hpresent
    exact List.mem_map.mpr ⟨_, Members.mem_of_get? hv, rfl⟩
  · exact absurd habsence hallowed

theorem accepts_pruned (hm : (Value.object m).WellFormed)
    (haccepts : (Schema.object properties required).Accepts (.object m)) :
    (Schema.object properties required).Accepts (r.pruned view (.object m)) := by
  obtain ⟨hmembers, hpresent⟩ := Schema.accepts_object_iff.mp haccepts
  refine Schema.accepts_object_iff.mpr ⟨fun p hp w hw => ?_, fun name hname => ?_⟩
  · obtain ⟨f, hfield, htakes⟩ := h.takes p hp
    obtain ⟨hf, hkey⟩ := mem_of_field? hfield
    rw [Members.get?_filter_map, if_pos (hkey ▸ List.mem_map_of_mem hf)] at hw
    obtain ⟨v, hv, rfl⟩ := Option.map_eq_some_iff.mp hw
    exact (htakes v (hm.get? hv) (hmembers p hp v hv)).1
  · rw [Members.get?_filter_map, if_pos (h.needed name hname), Option.isSome_map]
    exact hpresent name hname

theorem toValue_eq (hm : m.Sorted)
    (haccepts : (Schema.object properties required).Accepts (.object m)) {s : α}
    (hs : ∀ f ∈ r.fields, (f.member? s).map Value.normal =
      ((m.get? f.key).map (view f.key)).or ((f.member? r.blank).map Value.normal)) :
    r.toValue s = r.pruned view (.object m) := by
  have hpresent := (Schema.accepts_object_iff.mp haccepts).2
  refine congrArg Value.object ((r.sorted_sortedMembers s).eq_of_get? (hm.filter_map r.keys) ?_)
  intro key
  rw [get?_sortedMembers r s h.nodup, Members.get?_filter_map]
  by_cases hkey : key ∈ r.keys
  · obtain ⟨f, hf, rfl⟩ := List.mem_map.mp hkey
    rw [field?_of_mem h.nodup hf, if_pos hkey, Option.bind_some, hs f hf]
    -- the blank record writes nothing for a field that may be left out
    rcases h.absent f hf with hneeded | ⟨-, hblank⟩
    · obtain ⟨v, hv⟩ := Option.isSome_iff_exists.mp (hpresent f.key hneeded)
      rw [hv]
      rfl
    · rw [Option.isNone_iff_eq_none.mp hblank, Option.map_none, Option.or_none]
  · rw [field?_eq_none hkey, if_neg hkey]
    rfl

/-- A record takes what the schema of its objects accepts. -/
theorem takes_decoder :
    r.decoder.Takes r.ordered (.object properties required) (r.pruned view) := by
  intro v hv haccepts
  obtain ⟨m, rfl⟩ := haccepts.of_object
  obtain ⟨s, hs, hwritten⟩ := exists_updateOfMembers h.nodup h.independent hv.sorted.nodup_keys
    (h.reads_member hv haccepts) r.blank
  refine ⟨h.accepts_pruned hv haccepts, s, ?_, h.toValue_eq hv.sorted haccepts hwritten⟩
  show (if (r.missing? (m.map Prod.fst)).isNone then r.updateOfMembers m r.blank else none) = _
  rw [h.missing?_eq_none haccepts, hs]
  rfl

end Suits

end Record

end Mockup.Json
