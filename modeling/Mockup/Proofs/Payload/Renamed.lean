import Mockup.Payload.Alias
import Mockup.Proofs.Json.Members
import Mockup.Proofs.Lookup

/-! What renaming makes of members. No alias is left, a name that has aliases holds its own value or
that of the least alias there is, and every other key holds what it held; this determines the
renamed members, so that renaming them again changes nothing. -/

namespace Mockup.Payload

open Json

variable {level : Level} {m r : Members} {key : String}

namespace Level

theorem lookup_alias (level : Level) : ∀ p ∈ level.aliases, level.aliases.lookup p.1 = some p.2 := by
  cases level <;> decide

theorem lookup_name (level : Level) : ∀ p ∈ level.aliases, level.aliases.lookup p.2 = none := by
  cases level <;> decide

end Level

def heir? (level : Level) (name : String) (m : Members) : Option Value :=
  m.findSome? fun p => if level.aliases.lookup p.1 = some name then some p.2 else none

theorem heir?_cons {k : String} {v : Value} {rest : Members} :
    heir? level key ((k, v) :: rest) =
      if level.aliases.lookup k = some key then some v else heir? level key rest := by
  rw [heir?, List.findSome?_cons]
  split <;> simp_all [heir?]

theorem heir?_eq_none (hname : ∀ p ∈ level.aliases, p.2 ≠ key) (m : Members) :
    heir? level key m = none := by
  refine List.findSome?_eq_none_iff.mpr fun p _ => if_neg fun h => ?_
  exact hname _ (mem_of_lookup h) rfl

theorem sorted_renameInto {all rest done : Members} (hdone : done.Sorted) :
    (renameInto level all rest done).Sorted := by
  induction rest generalizing done with
  | nil => exact hdone
  | cons p rest ih =>
    obtain ⟨k, v⟩ := p
    simp only [renameInto]
    split
    · split
      · exact ih hdone
      · exact ih (hdone.set _ _)
    · exact ih (hdone.set _ _)

theorem sorted_rename (level : Level) (m : Members) : (rename level m).Sorted :=
  sorted_renameInto List.Pairwise.nil

theorem get?_renameInto_alias {name : String} (halias : level.aliases.lookup key = some name)
    {all rest done : Members} :
    (renameInto level all rest done).get? key = done.get? key := by
  induction rest generalizing done with
  | nil => rfl
  | cons p rest ih =>
    obtain ⟨k, v⟩ := p
    simp only [renameInto]
    cases hlookup : level.aliases.lookup k with
    | some n =>
      have hne : key ≠ n := by
        rintro rfl
        rw [level.lookup_name _ (mem_of_lookup hlookup)] at halias
        cases halias
      dsimp only
      split
      · exact ih
      · rw [ih, Members.get?_set, if_neg hne]
    | none =>
      have hne : key ≠ k := by
        rintro rfl
        rw [halias] at hlookup
        cases hlookup
      rw [ih, Members.get?_set, if_neg hne]

theorem get?_renameInto (halias : level.aliases.lookup key = none) {all rest done : Members}
    (hrest : (rest.map Prod.fst).Nodup) (hall : ∀ p ∈ rest, all.has p.1 = true) :
    (renameInto level all rest done).get? key =
      (rest.get? key).or
        ((done.get? key).or (if all.has key then none else heir? level key rest)) := by
  induction rest generalizing done with
  | nil => simp [renameInto, heir?]
  | cons p rest ih =>
    obtain ⟨k, v⟩ := p
    obtain ⟨hk, hrest⟩ := List.nodup_cons.mp hrest
    obtain ⟨hkall, hall⟩ := List.forall_mem_cons.mp hall
    simp only [renameInto, Members.get?_cons, heir?_cons]
    cases hlookup : level.aliases.lookup k with
    | some name =>
      have hkey : key ≠ k := by
        rintro rfl
        rw [halias] at hlookup
        cases hlookup
      rw [if_neg hkey]
      dsimp only
      by_cases hname : name = key
      · subst hname
        rw [if_pos rfl]
        split
        · next htaken =>
          rw [ih hrest hall]
          rcases Bool.or_eq_true _ _ ▸ htaken with hown | hdone
          · rw [if_pos hown, if_pos hown]
          · obtain ⟨w, hw⟩ := Option.isSome_iff_exists.mp hdone
            rw [hw, Option.some_or, Option.some_or]
        · next hfree =>
          rw [Bool.or_eq_true, not_or] at hfree
          have hdone : Members.get? done name = none := Option.not_isSome_iff_eq_none.mp hfree.2
          rw [ih hrest hall, Members.get?_set, if_pos rfl, hdone, if_neg hfree.1, if_neg hfree.1,
            Option.some_or, Option.none_or]
      · have hother : some name ≠ some key := fun h => hname (Option.some.inj h)
        rw [if_neg hother]
        split
        · exact ih hrest hall
        · rw [ih hrest hall, Members.get?_set, if_neg (Ne.symm hname)]
    | none =>
      dsimp only
      rw [ih hrest hall, Members.get?_set, if_neg (Option.some_ne_none key).symm]
      by_cases hkey : key = k
      · subst hkey
        rw [Members.get?_eq_none hk, if_pos rfl, if_pos rfl, if_pos hkall, Option.none_or,
          Option.some_or, Option.some_or]
      · rw [if_neg hkey, if_neg hkey]

theorem get?_rename_eq (halias : level.aliases.lookup key = none) (hm : m.Sorted) :
    (rename level m).get? key = (m.get? key).or (heir? level key m) := by
  have hall : ∀ p ∈ m, m.has p.1 = true := fun p hp => by
    rw [Members.has, Members.get?_of_mem hm.nodup_keys hp, Option.isSome_some]
  rw [rename, get?_renameInto halias hm.nodup_keys hall, Members.get?_nil, Option.none_or,
    Members.has]
  cases m.get? key <;> rfl

theorem get?_rename (halias : level.aliases.lookup key = none)
    (hname : ∀ p ∈ level.aliases, p.2 ≠ key) (hm : m.Sorted) :
    (rename level m).get? key = m.get? key := by
  rw [get?_rename_eq halias hm, heir?_eq_none hname, Option.or_none]

theorem findSome?_rename {β : Type} {keys : List String}
    (hkeys : ∀ key ∈ keys, level.aliases.lookup key = none ∧ ∀ p ∈ level.aliases, p.2 ≠ key)
    (hm : m.Sorted) (read : Value → Option β) :
    (keys.findSome? fun key => ((rename level m).get? key).bind read) =
      keys.findSome? fun key => (m.get? key).bind read := by
  induction keys with
  | nil => rfl
  | cons key keys ih =>
    obtain ⟨⟨halias, hname⟩, hkeys⟩ := List.forall_mem_cons.mp hkeys
    rw [List.findSome?_cons, List.findSome?_cons, get?_rename halias hname hm, ih hkeys]

theorem renameInto_eq_append {all rest done : Members}
    (halias : ∀ p ∈ rest, level.aliases.lookup p.1 = none) (hsorted : (done ++ rest).Sorted) :
    renameInto level all rest done = done ++ rest := by
  -- a member is set at the end, as those done before it have smaller keys
  induction rest generalizing done with
  | nil => exact (List.append_nil done).symm
  | cons p rest ih =>
    obtain ⟨key, v⟩ := p
    obtain ⟨hkey, halias⟩ := List.forall_mem_cons.mp halias
    have hlast : Members.set key v done = done ++ [(key, v)] :=
      Members.set_of_forall_lt fun q hq =>
        (List.pairwise_append.mp hsorted).2.2 q hq _ List.mem_cons_self
    simp only [renameInto, hkey, hlast]
    rw [ih halias] <;> simp [hsorted]

theorem rename_eq_self (halias : ∀ p ∈ m, level.aliases.lookup p.1 = none)
    (hsorted : m.Sorted) : rename level m = m := renameInto_eq_append halias hsorted

/-- What a name comes to hold: its own value, or the one under the least of its aliases. Keys are
compared character by character, which for aliases is the order of their bytes. -/
inductive Inherits (level : Level) (m : Members) (name : String) (v : Value) : Prop where
  | own : m.get? name = some v → Inherits level m name v
  | least {a : String} : m.get? name = none → (a, name) ∈ level.aliases → m.get? a = some v →
      (∀ b, (b, name) ∈ level.aliases → m.has b = true → a ≤ b) → Inherits level m name v

/-- The members `r` are `m` with its keys renamed. -/
structure Renamed (level : Level) (m r : Members) : Prop where
  sorted : r.Sorted
  aliases : ∀ p ∈ level.aliases, r.get? p.1 = none
  names : ∀ p ∈ level.aliases, ∀ v, r.get? p.2 = some v ↔ Inherits level m p.2 v
  others : ∀ key, (∀ p ∈ level.aliases, key ≠ p.1 ∧ key ≠ p.2) → r.get? key = m.get? key

theorem lookup_member_iff {name : String} {p : String × Value} {v : Value} :
    (if level.aliases.lookup p.1 = some name then some p.2 else none) = some v ↔
      (p.1, name) ∈ level.aliases ∧ p.2 = v := by
  constructor
  · intro h
    split at h
    · next hlookup => exact ⟨mem_of_lookup hlookup, Option.some.inj h⟩
    · cases h
  · rintro ⟨hmem, rfl⟩
    exact if_pos (level.lookup_alias _ hmem)

theorem heir?_eq_some_iff (hm : m.Sorted) {name : String} {v : Value} :
    heir? level name m = some v ↔ ∃ a, (a, name) ∈ level.aliases ∧ m.get? a = some v ∧
      ∀ b, (b, name) ∈ level.aliases → m.has b = true → a ≤ b := by
  constructor
  · intro h
    obtain ⟨l₁, ⟨a, w⟩, l₂, rfl, hw, hbefore⟩ := List.findSome?_eq_some_iff.mp h
    obtain ⟨halias, rfl⟩ := lookup_member_iff.mp hw
    refine ⟨a, halias, Members.get?_of_mem hm.nodup_keys (by simp), fun b hb hhas => ?_⟩
    -- an alias before it would have been taken
    obtain ⟨u, hu⟩ := Option.isSome_iff_exists.mp hhas
    rcases List.mem_append.mp (Members.mem_of_get? hu) with hmem | hmem
    · have hnone := hbefore _ hmem
      rw [lookup_member_iff.mpr ⟨hb, rfl⟩] at hnone
      cases hnone
    · rcases List.mem_cons.mp hmem with heq | hmem
      · rw [(Prod.mk.inj heq).1]
      · exact ((List.pairwise_cons.mp (List.pairwise_append.mp hm).2.1).1 _ hmem).le
  · rintro ⟨a, halias, ha, hleast⟩
    obtain ⟨l₁, l₂, rfl⟩ := List.append_of_mem (Members.mem_of_get? ha)
    refine List.findSome?_eq_some_iff.mpr
      ⟨l₁, (a, v), l₂, rfl, lookup_member_iff.mpr ⟨halias, rfl⟩, fun p hp => ?_⟩
    -- the members before it have lesser keys
    rw [Option.eq_none_iff_forall_ne_some]
    intro w hw
    obtain ⟨hmem, -⟩ := lookup_member_iff.mp hw
    have hhas : Members.has (l₁ ++ (a, v) :: l₂) p.1 = true := by
      rw [Members.has, Members.get?_of_mem hm.nodup_keys (List.mem_append_left _ hp),
        Option.isSome_some]
    exact (hleast _ hmem hhas).not_gt ((List.pairwise_append.mp hm).2.2 p hp _ List.mem_cons_self)

theorem renamed_rename (level : Level) (hm : m.Sorted) : Renamed level m (rename level m) where
  sorted := sorted_rename level m
  aliases p hp := get?_renameInto_alias (level.lookup_alias p hp)
  names p hp v := by
    rw [get?_rename_eq (level.lookup_name p hp) hm, Option.or_eq_some_iff, heir?_eq_some_iff hm]
    constructor
    · rintro (hown | ⟨hnone, a, halias, ha, hleast⟩)
      · exact .own hown
      · exact .least hnone halias ha hleast
    · rintro (hown | ⟨hnone, halias, ha, hleast⟩)
      · exact .inl hown
      · exact .inr ⟨hnone, _, halias, ha, hleast⟩
  others key hkey := by
    refine get?_rename ?_ (fun p hp => (hkey p hp).2.symm) hm
    rw [Option.eq_none_iff_forall_ne_some]
    intro name hname
    exact (hkey _ (mem_of_lookup hname)).1 rfl

theorem Renamed.eq (h : Renamed level m r) (hm : m.Sorted) : r = rename level m := by
  have hrename := renamed_rename level hm
  refine h.sorted.eq_of_get? hrename.sorted fun key => ?_
  by_cases hkey : ∀ p ∈ level.aliases, key ≠ p.1 ∧ key ≠ p.2
  · rw [h.others key hkey, hrename.others key hkey]
  · simp only [not_forall, not_and_or, not_not] at hkey
    obtain ⟨p, hp, rfl | rfl⟩ := hkey
    · rw [h.aliases p hp, hrename.aliases p hp]
    · exact Option.ext fun v => (h.names p hp v).trans (hrename.names p hp v).symm

theorem rename_rename (level : Level) (m : Members) :
    rename level (rename level m) = rename level m := by
  refine rename_eq_self (fun p hp => ?_) (sorted_rename level m)
  have hget := Members.get?_of_mem (sorted_rename level m).nodup_keys hp
  cases hlookup : level.aliases.lookup p.1 with
  | none => rfl
  | some name =>
    rw [rename, get?_renameInto_alias hlookup] at hget
    cases hget

end Mockup.Payload
