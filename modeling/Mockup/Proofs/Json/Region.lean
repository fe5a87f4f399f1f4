import Mathlib.Tactic.SplitIfs
import Mockup.Json.Reader.Text
import Mockup.Proofs.Json.Printed

/-! Where a scan of JSON text stands: between strings, within one, or after the backslash of an
escape. Backticks stand within strings only, and line breaks between them only. -/

namespace Mockup.Json

def IsSolid (c : Char) : Prop := '!' ≤ c ∧ c ≤ '~' ∧ c ≠ '"' ∧ c ≠ '\\' ∧ c ≠ '\x60'

instance (c : Char) : Decidable (IsSolid c) :=
  inferInstanceAs (Decidable ('!' ≤ c ∧ c ≤ '~' ∧ c ≠ '"' ∧ c ≠ '\\' ∧ c ≠ '\x60'))

theorem IsSolid.not_blank {c : Char} (h : IsSolid c) : Text.isBlank c = false :=
  Text.isBlank_of_graphic h.1 h.2.1

theorem isSolid_of_isDigit {c : Char} (h : Text.isDigit c = true) : IsSolid c := by
  rw [Text.isDigit, Bool.and_eq_true, decide_eq_true_eq, decide_eq_true_eq] at h
  have hne (d : Char) (hd : ¬ ('0' ≤ d ∧ d ≤ '9')) : c ≠ d := by
    rintro rfl
    exact hd h
  exact ⟨Char.le_trans (by decide) h.1, Char.le_trans h.2 (by decide), hne _ (by decide),
    hne _ (by decide), hne _ (by decide)⟩

theorem isBlank_of_isSpace {c : Char} (h : Reader.isSpace c = true) : Text.isBlank c = true := by
  simp only [Reader.isSpace, Bool.or_eq_true, decide_eq_true_eq] at h
  rcases h with ((rfl | rfl) | rfl) | rfl <;> decide

inductive Region where
  | between
  | within
  | escape
deriving DecidableEq

namespace Region

def step : Region → Char → Option Region
  | between, c =>
    if c = '"' then some within
    else if Reader.isSpace c = true ∨ IsSolid c then some between
    else none
  | within, c =>
    if c = '"' then some between
    else if c = '\\' then some escape
    else if c.toNat < 0x20 then none
    else some within
  | escape, c => if c = 'u' ∨ (Reader.shortEscape? c).isSome = true then some within else none

def scan (r : Region) (cs : List Char) : Option Region := cs.foldlM step r

variable {r s : Region} {c : Char} {cs ds : List Char}

theorem scan_cons (r : Region) (c : Char) (cs : List Char) :
    r.scan (c :: cs) = (r.step c).bind fun s => s.scan cs := rfl

theorem scan_append (h : r.scan cs = some s) (ds : List Char) :
    r.scan (cs ++ ds) = s.scan ds := by
  rw [scan, List.foldlM_append, ← scan, h]
  rfl

theorem exists_of_scan_cons (h : r.scan (c :: cs) = some s) :
    ∃ q, r.step c = some q ∧ q.scan cs = some s := Option.bind_eq_some_iff.mp h

theorem exists_of_scan_append (h : r.scan (cs ++ ds) = some s) :
    ∃ q, r.scan cs = some q ∧ q.scan ds = some s := by
  rw [scan, List.foldlM_append] at h
  exact Option.bind_eq_some_iff.mp h

theorem scan_between (h : ∀ c ∈ cs, Reader.isSpace c = true ∨ IsSolid c) :
    between.scan cs = some between := by
  induction cs with
  | nil => rfl
  | cons c cs ih =>
    obtain ⟨hc, hcs⟩ := List.forall_mem_cons.mp h
    have hquote : c ≠ '"' := by
      rintro rfl
      exact absurd hc (by decide)
    rw [scan_cons, step, if_neg hquote, if_pos hc]
    exact ih hcs

theorem step_backtick (h : r.step '\x60' = some s) : r = within ∧ s = within := by
  cases r with
  | within => exact ⟨rfl, (Option.some.inj h).symm⟩
  | between => cases (show none = some s from h)
  | escape => cases (show none = some s from h)

theorem step_newline (h : r.step '\n' = some s) : r = between ∧ s = between := by
  cases r with
  | between => exact ⟨rfl, (Option.some.inj h).symm⟩
  | within => cases (show none = some s from h)
  | escape => cases (show none = some s from h)

theorem step_blank (hc : Text.isBlank c = true) (h : r.step c = some s) : s = r := by
  have hne (d : Char) (hd : Text.isBlank d = false) : c ≠ d := by
    rintro rfl
    rw [hd] at hc
    cases hc
  cases r with
  | between =>
    rw [step, if_neg (hne '"' rfl)] at h
    split at h
    · exact (Option.some.inj h).symm
    · cases h
  | within =>
    rw [step, if_neg (hne '"' rfl), if_neg (hne '\\' rfl)] at h
    split at h
    · cases h
    · exact (Option.some.inj h).symm
  | escape =>
    have hshort : Reader.shortEscape? c = none := by
      simp only [Reader.shortEscape?, hne '"' rfl, hne '\\' rfl, hne '/' rfl, hne 'b' rfl,
        hne 'f' rfl, hne 'n' rfl, hne 'r' rfl, hne 't' rfl, if_false]
    rw [step, hshort] at h
    simp [hne 'u' rfl] at h

theorem scan_blank (hcs : ∀ c ∈ cs, Text.isBlank c = true) (h : r.scan cs = some s) : s = r := by
  induction cs with
  | nil => exact (Option.some.inj h).symm
  | cons c cs ih =>
    obtain ⟨hc, hcs⟩ := List.forall_mem_cons.mp hcs
    obtain ⟨q, hstep, hscan⟩ := exists_of_scan_cons h
    rw [step_blank hc hstep] at hscan
    exact ih hcs hscan

theorem scan_trim (h : r.scan cs = some s) : r.scan (Text.trim cs) = some s := by
  obtain ⟨front, back, hcs, hfront, hback⟩ := Text.exists_strip_eq Text.isBlank cs
  rw [hcs] at h
  obtain ⟨q, hscan, hend⟩ := exists_of_scan_append h
  obtain ⟨p, hstart, hmiddle⟩ := exists_of_scan_append hscan
  rw [scan_blank hback hend, ← scan_blank hfront hstart]
  exact hmiddle

/-- A text that can be scanned both within a string and between strings: each quote changes the
places, so that each character stands between strings in one of the two scans. -/
theorem clear_of_scans (hwithin : within.scan cs ≠ none) (hbetween : between.scan cs ≠ none) :
    ∀ c ∈ cs, c ≠ '\\' ∧ c ≠ '\x60' := by
  induction cs with
  | nil => exact List.forall_mem_nil _
  | cons c cs ih =>
    simp only [scan_cons, step] at hwithin hbetween
    refine List.forall_mem_cons.mpr ?_
    by_cases hquote : c = '"'
    · rw [if_pos hquote] at hwithin hbetween
      exact ⟨by rw [hquote]; decide, ih hbetween hwithin⟩
    · rw [if_neg hquote] at hwithin hbetween
      by_cases hplain : Reader.isSpace c = true ∨ IsSolid c
      · have hclear : c ≠ '\\' ∧ c ≠ '\x60' := by
          rcases hplain with hspace | hsolid
          · constructor
            · rintro rfl
              exact absurd hspace (by decide)
            · rintro rfl
              exact absurd hspace (by decide)
          · exact hsolid.2.2.2
        rw [if_neg hclear.1] at hwithin
        rw [if_pos hplain] at hbetween
        split at hwithin
        · exact absurd rfl hwithin
        · exact ⟨hclear, ih hwithin hbetween⟩
      · rw [if_neg hplain] at hbetween
        exact absurd rfl hbetween

end Region

end Mockup.Json
