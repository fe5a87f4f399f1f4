import Mockup.Proofs.Payload.Clean

/-! Which payloads are normalized: objects and texts that write one. All others are rejected, and
the rejection says what stands in place of the object. -/

namespace Mockup.Payload

open Json

/-- The payload is an object or a text that writes one. -/
def Readable (raw : Value) : Prop :=
  (∃ m, raw = .object m) ∨ ∃ t m, raw = .text t ∧ Value.parse t = .ok (.object m)

/-- Why a payload is rejected. -/
inductive Rejects : Value → Rejection → Prop where
  | unreadable {t : String} {f : Fault} : Value.parse t = .error f →
      Rejects (.text t) (.unreadable t f)
  | writesOther {t : String} {v : Value} : Value.parse t = .ok v → v.isObject = false →
      Rejects (.text t) (.notAnObject v.kindName)
  | other {v : Value} : v.isObject = false → v.text? = none → Rejects v (.notAnObject v.kindName)

variable {raw : Value} {e : Rejection}

theorem root_ok_iff {m : Members} :
    root raw = .ok m ↔ raw = .object m ∨ ∃ t, raw = .text t ∧ Value.parse t = .ok (.object m) := by
  cases raw with
  | object m' => simp [root]
  | text t =>
    simp only [root]
    cases hv : Value.parse t with
    | error f => simp [hv]
    | ok v => cases v <;> simp [hv]
  | _ => simp [root]

theorem root_error_iff : root raw = .error e ↔ Rejects raw e := by
  constructor
  · intro h
    cases raw with
    | object m => cases h
    | text t =>
      simp only [root] at h
      cases hv : Value.parse t with
      | error f =>
        rw [hv] at h
        cases h
        exact .unreadable hv
      | ok v =>
        rw [hv] at h
        cases v with
        | object m => cases h
        | _ =>
          cases h
          exact .writesOther hv rfl
    | _ =>
      cases h
      exact .other rfl rfl
  · intro h
    cases h with
    | unreadable hv => simp only [root, hv]
    | @writesOther t v hv hobject =>
      simp only [root, hv]
      cases v with
      | object m => cases hobject
      | _ => rfl
    | other hobject htext =>
      cases raw with
      | object m => cases hobject
      | text t => cases htext
      | _ => rfl

theorem normalize_ok_iff {ctx : Context} {s : Spec} :
    normalize ctx raw = .ok s ↔
      ∃ m, root raw = .ok m ∧ s = specOf ctx (rename .spec (unwrap m)) := by
  rw [normalize]
  cases h : root raw with
  | error e => simp [Except.map]
  | ok m => simp [Except.map, eq_comm]

theorem normalize_error_iff {ctx : Context} : normalize ctx raw = .error e ↔ Rejects raw e := by
  rw [normalize, ← root_error_iff]
  cases h : root raw with
  | error e => simp [Except.map]
  | ok m => simp [Except.map]

theorem readable_iff_root : Readable raw ↔ ∃ m, root raw = .ok m := by
  simp only [root_ok_iff, Readable, exists_or]
  refine or_congr Iff.rfl ?_
  constructor
  · rintro ⟨t, m, ht, hm⟩
    exact ⟨m, t, ht, hm⟩
  · rintro ⟨m, t, ht, hm⟩
    exact ⟨t, m, ht, hm⟩

theorem exists_normalize_ok_iff {ctx : Context} :
    (∃ s, normalize ctx raw = .ok s) ↔ Readable raw := by
  simp only [normalize_ok_iff, readable_iff_root]
  constructor
  · rintro ⟨s, m, hm, -⟩
    exact ⟨m, hm⟩
  · rintro ⟨m, hm⟩
    exact ⟨_, m, hm, rfl⟩

theorem clean_of_normalize {ctx : Context} {s : Spec} (h : normalize ctx raw = .ok s) :
    s.Clean := by
  obtain ⟨m, -, rfl⟩ := normalize_ok_iff.mp h
  exact clean_specOf ctx _

end Mockup.Payload
