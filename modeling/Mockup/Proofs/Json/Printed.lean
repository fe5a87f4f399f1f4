import Mockup.Json.Printer
import Mockup.Proofs.Text.Trim

/-! What is printed starts and ends with characters that are not blank, so that a value written as
text is a filled text. -/

namespace Mockup

open Text

theorem Text.isBlank_of_graphic {c : Char} (low : '!' ≤ c) (high : c ≤ '~') :
    isBlank c = false := by
  have hne (d : Char) (hd : ¬ '!' ≤ d ∨ ¬ d ≤ '~') : c ≠ d := by
    rintro rfl
    exact hd.elim (fun h => h low) fun h => h high
  have hreturn : ¬ c ≤ '\r' := fun h => absurd (Char.le_trans low h) (by decide)
  have hquad : ¬ '\u2000' ≤ c := fun h => absurd (Char.le_trans h high) (by decide)
  simp only [isBlank, hreturn, hquad, hne ' ' (by decide), hne '\u0085' (by decide),
    hne '\u00a0' (by decide), hne '\u1680' (by decide), hne '\u2028' (by decide),
    hne '\u2029' (by decide), hne '\u202f' (by decide), hne '\u205f' (by decide),
    hne '\u3000' (by decide), decide_false, Bool.and_false, Bool.false_and, Bool.or_false]

def Text.isNumeral (c : Char) : Bool := isDigit c || c = '-' || c = '+' || c = '.' || c = 'e'

theorem Text.isBlank_of_isNumeral {c : Char} (h : isNumeral c = true) : isBlank c = false := by
  simp only [isNumeral, Bool.or_eq_true, decide_eq_true_eq] at h
  rcases h with (((h | rfl) | rfl) | rfl) | rfl
  · rw [isDigit, Bool.and_eq_true, decide_eq_true_eq, decide_eq_true_eq] at h
    exact isBlank_of_graphic (Char.le_trans (by decide) h.1) (Char.le_trans h.2 (by decide))
  · rfl
  · rfl
  · rfl
  · rfl

theorem Text.isDigit_of_mem_digits {c : Char} {n : Nat} (h : c ∈ digits n) : isDigit c = true := by
  have hdigit : c.isDigit = true := Nat.isDigit_of_mem_toDigits (by decide) (by decide) h
  exact hdigit

theorem Text.isNumeral_of_mem_digits {c : Char} {n : Nat} (h : c ∈ digits n) :
    isNumeral c = true := by
  rw [isNumeral, isDigit_of_mem_digits h]
  rfl

theorem Text.digits_ne_nil (n : Nat) : digits n ≠ [] := Nat.toDigits_ne_nil

theorem Text.isNumeral_of_mem_integer {c : Char} {n : Int} (h : c ∈ integer n) :
    isNumeral c = true := by
  cases n with
  | ofNat n => exact isNumeral_of_mem_digits h
  | negSucc n =>
    rcases List.mem_cons.mp h with rfl | h
    · rfl
    · exact isNumeral_of_mem_digits h

theorem Text.integer_ne_nil (n : Int) : integer n ≠ [] := by
  cases n with
  | ofNat n => exact digits_ne_nil n
  | negSucc n => exact List.cons_ne_nil _ _

namespace Number.Layout

variable {layout : Layout} {ds : List Char} {c : Char}

theorem plain_ne_nil (layout : Layout) (ds : List Char) (e : Int) : layout.plain ds e ≠ [] := by
  cases e with
  | negSucc n => exact List.cons_ne_nil _ _
  | ofNat n =>
    simp only [plain]
    split
    · intro h
      have hlen := congrArg List.length h
      simp only [List.length_append, List.length_replicate, List.length_nil] at hlen
      omega
    · simp

theorem isNumeral_of_mem_plain (hds : ∀ c ∈ ds, isNumeral c = true) {e : Int}
    (h : c ∈ layout.plain ds e) : isNumeral c = true := by
  cases e with
  | negSucc n =>
    simp only [plain, List.mem_cons, List.mem_append, List.mem_replicate] at h
    rcases h with rfl | rfl | ⟨-, rfl⟩ | h
    · rfl
    · rfl
    · rfl
    · exact hds c h
  | ofNat n =>
    simp only [plain] at h
    split at h
    · simp only [List.mem_append, List.mem_replicate] at h
      rcases h with (h | ⟨-, rfl⟩) | h
      · exact hds c h
      · rfl
      · split at h
        · simp only [List.mem_cons, List.not_mem_nil, or_false] at h
          rcases h with rfl | rfl <;> rfl
        · cases h
    · simp only [List.mem_append, List.mem_cons] at h
      rcases h with h | rfl | h
      · exact hds c (List.mem_of_mem_take h)
      · rfl
      · exact hds c (List.mem_of_mem_drop h)

theorem withExponent_ne_nil (ds : List Char) (e : Int) : withExponent ds e ≠ [] := by
  simp [withExponent]

theorem isNumeral_of_mem_withExponent (hds : ∀ c ∈ ds, isNumeral c = true) {e : Int}
    (h : c ∈ withExponent ds e) : isNumeral c = true := by
  simp only [withExponent, List.mem_append, List.mem_cons] at h
  rcases h with h | rfl | rfl | h
  · cases ds with
    | nil => cases h
    | cons d more =>
      cases more with
      | nil => exact hds c h
      | cons d' more =>
        rcases List.mem_cons.mp h with rfl | h
        · exact hds c List.mem_cons_self
        · rcases List.mem_cons.mp h with rfl | h
          · rfl
          · exact hds c (List.mem_cons_of_mem _ h)
  · rfl
  · split <;> rfl
  · exact isNumeral_of_mem_digits h

theorem write_ne_nil (layout : Layout) (x : Double) : layout.write x ≠ [] := by
  simp only [write]
  split
  · exact List.cons_ne_nil _ _
  · split
    · exact plain_ne_nil _ _ _
    · exact withExponent_ne_nil _ _

theorem isNumeral_of_mem_write {x : Double} (h : c ∈ layout.write x) : isNumeral c = true := by
  have hds : ∀ c ∈ digits x.shortest.digits, isNumeral c = true := fun c => isNumeral_of_mem_digits
  have hbody (e : Int) (b : Prop) [Decidable b]
      (h : c ∈ if b then layout.plain (digits x.shortest.digits) e
        else withExponent (digits x.shortest.digits) e) : isNumeral c = true := by
    split at h
    · exact isNumeral_of_mem_plain hds h
    · exact isNumeral_of_mem_withExponent hds h
  simp only [write] at h
  split at h
  · rcases List.mem_cons.mp h with rfl | h
    · rfl
    · exact hbody _ _ h
  · exact hbody _ _ h

end Number.Layout

namespace Json

theorem Number.isNumeral_of_mem_print {n : Number} {c : Char} (h : c ∈ n.print) :
    isNumeral c = true := by
  cases n with
  | int k => exact isNumeral_of_mem_integer h
  | real x => exact Number.Layout.isNumeral_of_mem_write h

theorem Number.print_ne_nil (n : Number) : n.print ≠ [] := by
  cases n with
  | int k => exact integer_ne_nil _
  | real x => exact Number.Layout.write_ne_nil _ x

theorem Number.filled_print (n : Number) : Filled (String.ofList n.print) :=
  filled_of_forall n.print_ne_nil fun _ h => isBlank_of_isNumeral (isNumeral_of_mem_print h)

theorem Value.filled_compact_list (vs : List Value) : Filled (Value.list vs).compact := by
  rw [compact, print, filled_iff_ends, StartsFilled, EndsFilled, String.toList_ofList]
  refine ⟨⟨'[', rfl, rfl⟩, ⟨']', ?_, rfl⟩⟩
  rw [← List.cons_append, List.getLast?_concat]

theorem Value.filled_compact_object (m : Members) : Filled (Value.object m).compact := by
  rw [compact, print, filled_iff_ends, StartsFilled, EndsFilled, String.toList_ofList]
  refine ⟨⟨'\x7b', rfl, rfl⟩, ⟨'\x7d', ?_, rfl⟩⟩
  rw [← List.cons_append, List.getLast?_concat]

end Json

end Mockup
