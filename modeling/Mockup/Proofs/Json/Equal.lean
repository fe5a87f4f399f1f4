import Mockup.Proofs.Json.Spaced
import Mockup.Proofs.Json.Record

/-! Equality of values as the program has it is equality but for the two zeros among the
doubles. -/

namespace Mockup

theorem Number.Double.eq_of_same {x y : Double} (hx : x.isZero = false) (h : x.same y = true) :
    x = y := by
  rw [same, Bool.and_eq_true, hx, Bool.or_false, decide_eq_true_eq, decide_eq_true_eq] at h
  cases x
  cases y
  rw [mk.injEq]
  exact ⟨h.2, h.1⟩

namespace Json

def Number.ZeroFree : Number → Prop
  | .int _ => True
  | .real x => x.isZero = false

theorem Number.eq_of_same {a b : Number} (ha : a.ZeroFree) (h : a.same b = true) : a = b := by
  cases a with
  | int j =>
    cases b with
    | int k => exact congrArg Number.int (of_decide_eq_true h)
    | real y => cases h
  | real x =>
    cases b with
    | int k => cases h
    | real y => exact congrArg Number.real (Number.Double.eq_of_same ha h)

namespace Value

variable {v w : Value} {vs ws : List Value} {m l : Members}

inductive ZeroFree : Value → Prop where
  | null : ZeroFree .null
  | bool (b : Bool) : ZeroFree (.bool b)
  | number {n : Number} : n.ZeroFree → ZeroFree (.number n)
  | text (s : String) : ZeroFree (.text s)
  | list {items : List Value} : (∀ v ∈ items, ZeroFree v) → ZeroFree (.list items)
  | object {m : Members} : (∀ p ∈ m, ZeroFree p.2) → ZeroFree (.object m)

theorem RealFree.zeroFree (h : v.RealFree) : v.ZeroFree := by
  induction h with
  | null => exact .null
  | bool b => exact .bool b
  | int k => exact .number trivial
  | text s => exact .text s
  | list _ ih => exact .list ih
  | object _ ih => exact .object ih

theorem eq_of_sameItems (hvs : ∀ v ∈ vs, ∀ w, v.same w = true → v = w)
    (h : sameItems vs ws = true) : vs = ws := by
  induction vs generalizing ws with
  | nil =>
    cases ws with
    | nil => rfl
    | cons w ws => cases h
  | cons v vs ih =>
    cases ws with
    | nil => cases h
    | cons w ws =>
      rw [sameItems, Bool.and_eq_true] at h
      rw [List.forall_mem_cons] at hvs
      rw [hvs.1 w h.1, ih hvs.2 h.2]

theorem eq_of_sameMembers (hm : ∀ p ∈ m, ∀ w, p.2.same w = true → p.2 = w)
    (h : sameMembers m l = true) : m = l := by
  induction m generalizing l with
  | nil =>
    cases l with
    | nil => rfl
    | cons q l => cases h
  | cons p m ih =>
    cases l with
    | nil => cases h
    | cons q l =>
      obtain ⟨j, v⟩ := p
      obtain ⟨k, w⟩ := q
      rw [sameMembers, Bool.and_eq_true, Bool.and_eq_true, decide_eq_true_eq] at h
      obtain ⟨⟨rfl, hsame⟩, hmore⟩ := h
      rw [List.forall_mem_cons] at hm
      obtain rfl : v = w := hm.1 w hsame
      rw [ih hm.2 hmore]

theorem eq_of_same (hv : v.ZeroFree) (h : v.same w = true) : v = w := by
  -- Values of different kinds are never equal, so each case looks at its own kind only.
  induction hv generalizing w with
  | null =>
    cases w with
    | null => rfl
    | _ => cases h
  | bool b =>
    cases w with
    | bool c => exact congrArg Value.bool (of_decide_eq_true h)
    | _ => cases h
  | number ha =>
    cases w with
    | number b => exact congrArg Value.number (Number.eq_of_same ha h)
    | _ => cases h
  | text s =>
    cases w with
    | text t => exact congrArg Value.text (of_decide_eq_true h)
    | _ => cases h
  | list _ ih =>
    cases w with
    | list ws =>
      rw [same] at h
      rw [eq_of_sameItems (fun v hv w hw => ih v hv hw) h]
    | _ => cases h
  | object _ ih =>
    cases w with
    | object l =>
      rw [same] at h
      rw [eq_of_sameMembers (fun p hp w hw => ih p hp hw) h]
    | _ => cases h

theorem ZeroFree.normal (h : v.ZeroFree) : v.normal.ZeroFree := by
  induction h with
  | null => exact .null
  | bool b => exact .bool b
  | number hn => exact .number hn
  | text s => exact .text s
  | list _ ih =>
    rw [Value.normal, normalItems_eq_map]
    exact .list (List.forall_mem_map.mpr ih)
  | object _ ih =>
    rw [Value.normal, normalMembers_eq_map]
    refine .object fun p hp => ?_
    obtain ⟨q, hq, rfl⟩ := List.mem_map.mp (Members.mem_sorted hp)
    exact ih q hq

theorem realFree_texts (xs : List String) : (texts xs).RealFree :=
  .list (List.forall_mem_map.mpr fun x _ => .text x)

end Value

variable {α β : Type} {x : α} {key : String} {d : Decoder β} {write : β → Value}
  {P : Value → Prop}

namespace Field

def Writes (P : Value → Prop) (f : Field α) (x : α) : Prop := ∀ v ∈ f.member? x, P v

theorem writes_required {get : α → β} {set : β → α → α} (h : P (write (get x))) :
    (required key d write get set).Writes P x := by
  intro v hv
  obtain rfl := Option.some.inj hv
  exact h

theorem writes_defaulted {get : α → β} {set : β → α → α} (h : P (write (get x))) :
    (defaulted key d write get set).Writes P x := by
  intro v hv
  obtain rfl := Option.some.inj hv
  exact h

theorem writes_optional {get : α → Option β} {set : Option β → α → α}
    (h : ∀ y ∈ get x, P (write y)) : (optional key d write get set).Writes P x := by
  intro v hv
  obtain ⟨y, hy, rfl⟩ := Option.map_eq_some_iff.mp hv
  exact h y hy

end Field

theorem Record.forall_members {r : Record α} (h : ∀ f ∈ r.fields, f.Writes P x) :
    ∀ p ∈ r.members x, P p.2 := by
  intro p hp
  obtain ⟨f, hf, hp⟩ := List.mem_filterMap.mp hp
  obtain ⟨v, hv, rfl⟩ := Option.map_eq_some_iff.mp hp
  exact h f hf v hv

end Json

end Mockup
