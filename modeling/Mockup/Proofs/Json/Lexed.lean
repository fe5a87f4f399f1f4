import Mathlib.Tactic.SplitIfs
import Mockup.Proofs.Json.Printed

/-! Compact JSON text is strings and, between them, printable ASCII characters. -/

namespace Mockup.Json

open Text

def Bare (c : Char) : Prop := ' ' ≤ c ∧ c ≤ '~' ∧ c ≠ '"' ∧ c ≠ '<'

instance (c : Char) : Decidable (Bare c) :=
  inferInstanceAs (Decidable (' ' ≤ c ∧ c ≤ '~' ∧ c ≠ '"' ∧ c ≠ '<'))

theorem bare_of_isNumeral {c : Char} (h : isNumeral c = true) : Bare c := by
  simp only [isNumeral, Bool.or_eq_true, decide_eq_true_eq] at h
  rcases h with (((h | rfl) | rfl) | rfl) | rfl
  · rw [isDigit, Bool.and_eq_true, decide_eq_true_eq, decide_eq_true_eq] at h
    have hquote : c ≠ '"' := by
      rintro rfl
      exact absurd h.1 (by decide)
    have hopen : c ≠ '<' := by
      rintro rfl
      exact absurd h.2 (by decide)
    exact ⟨Char.le_trans (by decide) h.1, Char.le_trans h.2 (by decide), hquote, hopen⟩
  · decide
  · decide
  · decide
  · decide

inductive Lexed : List Char → Prop where
  | nil : Lexed []
  | char {c : Char} {cs : List Char} (bare : Bare c) (rest : Lexed cs) : Lexed (c :: cs)
  | text (s : String) {cs : List Char} (rest : Lexed cs) : Lexed (quoted s ++ cs)

namespace Lexed

variable {cs ds : List Char}

theorem append (h : Lexed cs) (h' : Lexed ds) : Lexed (cs ++ ds) := by
  induction h with
  | nil => exact h'
  | char bare _ ih => exact .char bare ih
  | text s _ ih =>
    rw [List.append_assoc]
    exact .text s ih

theorem of_forall (h : ∀ c ∈ cs, Bare c) : Lexed cs := by
  induction cs with
  | nil => exact .nil
  | cons c cs ih =>
    rw [List.forall_mem_cons] at h
    exact .char h.1 (ih h.2)

theorem of_all (h : cs.all (fun c => decide (Bare c)) = true) : Lexed cs :=
  of_forall fun c hc => of_decide_eq_true (List.all_eq_true.mp h c hc)

theorem quoted (s : String) : Lexed (quoted s) := by
  have h := Lexed.text s .nil
  rwa [List.append_nil] at h

end Lexed

mutual

theorem Value.lexed_print (v : Value) : Lexed v.print := by
  cases v with
  | null => exact .of_all (by decide)
  | bool b => cases b <;> exact .of_all (by decide)
  | number n => exact .of_forall fun c h => bare_of_isNumeral (Number.isNumeral_of_mem_print h)
  | text s => exact .quoted s
  | list vs =>
    rw [Value.print]
    exact .char (by decide) ((Value.lexed_printItems vs).append (.of_all (by decide)))
  | object m =>
    rw [Value.print]
    exact .char (by decide) ((Value.lexed_printMembers m).append (.of_all (by decide)))

theorem Value.lexed_printItems (vs : List Value) : Lexed (Value.printItems vs) := by
  match vs with
  | [] => exact .nil
  | [v] => exact Value.lexed_print v
  | v :: w :: vs =>
    rw [Value.printItems]
    exact (Value.lexed_print v).append (.char (by decide) (Value.lexed_printItems (w :: vs)))

theorem Value.lexed_printMembers (m : Members) : Lexed (Value.printMembers m) := by
  match m with
  | [] => exact .nil
  | [(k, v)] =>
    rw [Value.printMembers]
    exact .text k (.char (by decide) (Value.lexed_print v))
  | (k, v) :: p :: m =>
    rw [Value.printMembers]
    have hmore : Lexed (',' :: Value.printMembers (p :: m)) :=
      .char (by decide) (Value.lexed_printMembers (p :: m))
    exact .text k (.char (by decide) ((Value.lexed_print v).append hmore))

end

theorem hexDigit_printable (n : Fin 16) :
    ' ' ≤ hexDigit n ∧ hexDigit n ≤ '~' ∧ hexDigit n ≠ '<' := by
  revert n
  decide

theorem escapeChar_cases (c : Char) :
    (escapeChar c = [c] ∧ ' ' ≤ c) ∨
      ∃ e, escapeChar c = '\\' :: e ∧ ∀ d ∈ e, ' ' ≤ d ∧ d ≤ '~' ∧ d ≠ '<' := by
  unfold escapeChar
  split_ifs with hquote hslash hback htab hline hfeed hreturn hcontrol
  · exact .inr ⟨[_], rfl, List.forall_mem_singleton.mpr (by decide)⟩
  · exact .inr ⟨[_], rfl, List.forall_mem_singleton.mpr (by decide)⟩
  · exact .inr ⟨[_], rfl, List.forall_mem_singleton.mpr (by decide)⟩
  · exact .inr ⟨[_], rfl, List.forall_mem_singleton.mpr (by decide)⟩
  · exact .inr ⟨[_], rfl, List.forall_mem_singleton.mpr (by decide)⟩
  · exact .inr ⟨[_], rfl, List.forall_mem_singleton.mpr (by decide)⟩
  · exact .inr ⟨[_], rfl, List.forall_mem_singleton.mpr (by decide)⟩
  · have hhigh := hexDigit_printable ⟨c.toNat / 16, by omega⟩
    have hlow := hexDigit_printable ⟨c.toNat % 16, by omega⟩
    refine .inr ⟨_, rfl, ?_⟩
    simp only [List.forall_mem_cons]
    exact ⟨by decide, by decide, by decide, hhigh, hlow, by simp⟩
  · exact .inl ⟨rfl, Nat.le_of_not_lt hcontrol⟩

theorem space_le_of_mem_quoted {s : String} {c : Char} (h : c ∈ quoted s) : ' ' ≤ c := by
  simp only [quoted, List.mem_cons, List.mem_append, List.mem_flatMap, List.not_mem_nil,
    or_false] at h
  rcases h with rfl | ⟨d, -, hd⟩ | rfl
  · decide
  · rcases escapeChar_cases d with ⟨hplain, hspace⟩ | ⟨e, he, hprintable⟩
    · rw [hplain, List.mem_singleton] at hd
      exact hd ▸ hspace
    · rw [he] at hd
      rcases List.mem_cons.mp hd with rfl | hd
      · decide
      · exact (hprintable c hd).1
  · decide

theorem Lexed.space_le {cs : List Char} (h : Lexed cs) : ∀ c ∈ cs, ' ' ≤ c := by
  induction h with
  | nil => exact fun c h => absurd h List.not_mem_nil
  | char bare _ ih => exact List.forall_mem_cons.mpr ⟨bare.1, ih⟩
  | text s _ ih =>
    intro c hc
    rcases List.mem_append.mp hc with hc | hc
    · exact space_le_of_mem_quoted hc
    · exact ih c hc

end Mockup.Json
