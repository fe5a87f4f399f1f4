import Mockup.Log.Entry
import Mockup.Proofs.Json.Lexed
import Mockup.Proofs.Json.Recovers

/-! Events as lines. What is written for an event is one line, whatever texts it holds, and it is
read as the event again unless its details are `null` or nested too deeply. -/

namespace Mockup.Json.Value

structure Plain (v : Value) : Prop where
  wellFormed : v.WellFormed
  realFree : v.RealFree

theorem Plain.recovers {v : Value} (h : v.Plain) : Decoder.value.Recovers v v := by
  have hback := Decoder.recovers_normal h.realFree
  rwa [h.wellFormed.normal_eq] at hback

structure Simple (v : Value) : Prop extends Plain v where
  flat : v.levels ≤ 1

theorem simple_text (t : String) : (Value.text t).Simple := ⟨⟨.text t, .text t⟩, Nat.zero_le 1⟩

theorem simple_bool (b : Bool) : (Value.bool b).Simple := ⟨⟨.bool b, .bool b⟩, Nat.zero_le 1⟩

theorem simple_count (n : Nat) : (count n).Simple := ⟨⟨.number _, .int _⟩, Nat.zero_le 1⟩

theorem simple_null : Value.null.Simple := ⟨⟨.null, .null⟩, Nat.zero_le 1⟩

theorem simple_optional (x : Option String) : (optional x).Simple := by
  cases x with
  | none => exact simple_null
  | some t => exact simple_text t

theorem simple_texts (xs : List String) : (texts xs).Simple := by
  have htexts : ∀ v ∈ xs.map Value.text, v.RealFree ∧ v.levels ≤ 0 := by
    intro v hv
    obtain ⟨t, -, rfl⟩ := List.mem_map.mp hv
    exact ⟨.text t, Nat.le_refl 0⟩
  exact ⟨⟨wellFormed_texts xs, .list fun v hv => (htexts v hv).1⟩,
    levels_list_le_iff.mpr fun v hv => (htexts v hv).2⟩

theorem plain_mapping {m : List (String × Value)} (h : ∀ p ∈ m, p.2.Plain) : (mapping m).Plain :=
  ⟨.object (Members.sorted_sorted m) fun p hp => (h p (Members.mem_sorted hp)).wellFormed,
    .object fun p hp => (h p (Members.mem_sorted hp)).realFree⟩

theorem levels_mapping_le {m : List (String × Value)} {n : Nat} (h : ∀ p ∈ m, p.2.levels ≤ n) :
    (mapping m).levels ≤ n + 1 :=
  levels_object_le_iff.mpr fun p hp => h p (Members.mem_sorted hp)

end Mockup.Json.Value

namespace Mockup.Json.Members

def Simple (m : Members) : Prop := ∀ p ∈ m, p.2.Simple

theorem Simple.nil : Simple [] := nofun

theorem Simple.cons {key : String} {v : Value} {m : Members} (hv : v.Simple) (h : m.Simple) :
    Simple ((key, v) :: m) := List.forall_mem_cons.mpr ⟨hv, h⟩

end Mockup.Json.Members

namespace Mockup.Log

open Json Json.Decoder Json.Field Json.Record

theorem EventKind.lookup_name (k : EventKind) :
    (EventKind.all.map fun k => (k.name, k)).lookup k.name = some k := by
  cases k <;> decide

theorem Level.lookup_name (l : Level) :
    (Level.all.map fun l => (l.name, l)).lookup l.name = some l := by
  cases l <;> decide

def Entry.Plain (e : Entry) : Prop := ∀ v ∈ e.details, v.Plain

structure Entry.Legible (e : Entry) : Prop where
  plain : e.Plain
  present : e.details ≠ some .null
  shallow : ∀ v ∈ e.details, v.levels ≤ 126

theorem Entry.legible_of_none {e : Entry} (h : e.details = none) : e.Legible := by
  refine ⟨fun v hv => ?_, by simp [h], fun v hv => ?_⟩
  all_goals
    rw [h] at hv
    cases hv

theorem Entry.legible_of_described {e : Entry} {m : Members}
    (h : e.details = Entry.described m) (hm : m.Simple) : e.Legible := by
  have hplain : (Value.mapping m).Plain := Value.plain_mapping fun p hp => (hm p hp).toPlain
  have hlevels : (Value.mapping m).levels ≤ 2 := Value.levels_mapping_le fun p hp => (hm p hp).flat
  unfold Entry.described at h
  refine ⟨fun v hv => ?_, by simp [h, Value.mapping], fun v hv => ?_⟩
  · obtain rfl : Value.mapping m = v := Option.some.inj (h.symm.trans hv)
    exact hplain
  · obtain rfl : Value.mapping m = v := Option.some.inj (h.symm.trans hv)
    exact hlevels.trans (by decide)

namespace Event

variable {e : Event}

def backDetails : Value → Option Value
  | .null => none
  | v => some v

theorem recovers_details {v : Value} (h : v.Plain) :
    value.optional.Recovers (backDetails v) v := by
  cases v with
  | null => exact recovers_optional_null value
  | bool b => exact recovers_optional h.recovers nofun
  | number n => exact recovers_optional h.recovers nofun
  | text t => exact recovers_optional h.recovers nofun
  | list vs => exact recovers_optional h.recovers nofun
  | object m => exact recovers_optional h.recovers nofun

/-- An event comes back from its text, but for details that are `null`. -/
theorem recovers (h : e.Plain) :
    record.decoder.Recovers { e with details := e.details.bind backDetails } (record.ordered e) := by
  have hkind := recovers_variant (EventKind.lookup_name e.kind)
  have hlevel := recovers_variant (Level.lookup_name e.level)
  refine recovers_decoder (by decide) ?_
  exact .cons (restores_required (recovers_textAs "a string" e.timestamp)) <|
    .cons (restores_required hkind) <|
    .cons (restores_required hlevel) <|
    .cons (restores_required (recovers_textAs "a string" e.message)) <|
    .cons (restores_named (fun v hv => recovers_details (h v hv)) rfl) <| .nil e _

theorem levels_ordered_le_iff :
    (record.ordered e).levels ≤ Reader.maxLevels ↔ ∀ v ∈ e.details, v.levels ≤ 126 := by
  have htext (t : String) : (Value.text t).levels ≤ 126 := Nat.zero_le 126
  have hlevels : (record.ordered e).levels ≤ Reader.maxLevels ↔
      ∀ p ∈ record.members e, p.2.levels ≤ 126 := Value.levels_object_le_iff
  rw [hlevels]
  cases hdetails : e.details with
  | none => simp [record, members, required, named, hdetails, htext]
  | some v => simp [record, members, required, named, hdetails, htext]

theorem bind_backDetails {details : Option Value} (h : details ≠ some .null) :
    details.bind backDetails = details := by
  cases details with
  | none => rfl
  | some v =>
    cases v with
    | null => exact absurd rfl h
    | _ => rfl

theorem decode_compact_iff (h : e.Plain) :
    record.decoder.decode e.compact = .ok e ↔ e.Legible := by
  obtain ⟨hshallow, hdeep⟩ := (recovers h).decode_compact
  rw [levels_ordered_le_iff] at hshallow hdeep
  constructor
  · intro hok
    have hlevels : ∀ v ∈ e.details, v.levels ≤ 126 := by
      by_contra hlevels
      obtain ⟨f, hf⟩ := hdeep hlevels
      have hok' : record.decoder.decode (record.ordered e).compact = .ok e := hok
      rw [hf] at hok'
      cases hok'
    refine ⟨h, fun hnull => ?_, hlevels⟩
    -- the details would be read as none
    have hread : Except.ok { e with details := e.details.bind backDetails } = .ok e :=
      (hshallow hlevels).symm.trans hok
    have hdetails := congrArg (fun e => e.details) (Except.ok.inj hread)
    rw [hnull] at hdetails
    cases hdetails
  · intro hlegible
    have hread := hshallow hlegible.shallow
    rw [bind_backDetails hlegible.present] at hread
    exact hread

theorem space_le_of_mem_compact {c : Char} (hc : c ∈ e.compact.toList) : ' ' ≤ c := by
  rw [compact, Value.compact, String.toList_ofList] at hc
  exact (Value.lexed_print _).space_le c hc

theorem newline_not_mem_compact : '\n' ∉ e.compact.toList :=
  fun h => absurd (space_le_of_mem_compact h) (by decide)

theorem return_not_mem_compact : '\r' ∉ e.compact.toList :=
  fun h => absurd (space_le_of_mem_compact h) (by decide)

end Event

end Mockup.Log
