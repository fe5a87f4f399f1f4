import Mathlib.Data.List.TakeDrop
import Mockup.Json.Reader.Number
import Mockup.Proofs.Json.Printed

/-! Integers come back from their digits, if what follows does not go on with the number. -/

namespace Mockup.Json.Reader

open Text

/-- A value may end here: the text goes on with a comma, a bracket that closes or space, or not at
all. -/
def Ends (rest : List Char) : Prop :=
  ∀ c ∈ rest.head?, c = ',' ∨ c = ']' ∨ c = '\x7d' ∨ isSpace c = true

variable {rest : List Char} {n : Nat}

theorem Ends.cases (h : Ends rest) :
    ∀ c ∈ rest.head?, c ∈ [',', ']', '\x7d', ' ', '\n', '\t', '\r'] := by
  intro c hc
  rcases h c hc with rfl | rfl | rfl | hspace
  · decide
  · decide
  · decide
  · simp only [isSpace, Bool.or_eq_true, decide_eq_true_eq] at hspace
    rcases hspace with ((rfl | rfl) | rfl) | rfl <;> decide

theorem Ends.not_digit (h : Ends rest) : ∀ c ∈ rest.head?, isDigit c = false := by
  have hall : [',', ']', '\x7d', ' ', '\n', '\t', '\r'].all (fun c => !isDigit c) = true := by decide
  intro c hc
  have hnot := List.all_eq_true.mp hall c (h.cases c hc)
  rwa [Bool.not_eq_true'] at hnot

theorem ends_nil : Ends [] := by
  intro c hc
  cases hc

theorem ends_comma (cs : List Char) : Ends (',' :: cs) := by
  intro c hc
  exact .inl (Option.some.inj hc).symm

theorem ends_bracket (cs : List Char) : Ends (']' :: cs) := by
  intro c hc
  exact .inr (.inl (Option.some.inj hc).symm)

theorem ends_brace (cs : List Char) : Ends ('\x7d' :: cs) := by
  intro c hc
  exact .inr (.inr (.inl (Option.some.inj hc).symm))

theorem Ends.space {space : List Char} (hspace : ∀ c ∈ space, isSpace c = true) (h : Ends rest) :
    Ends (space ++ rest) := by
  cases space with
  | nil => exact h
  | cons d ds =>
    intro c hc
    obtain rfl : d = c := Option.some.inj hc
    exact .inr (.inr (.inr (hspace d List.mem_cons_self)))

theorem spanDigits_append {ds : List Char} (hds : ∀ c ∈ ds, isDigit c = true) (h : Ends rest) :
    spanDigits (ds ++ rest) = (ds, rest) := by
  have hrest : rest.takeWhile isDigit = [] ∧ rest.dropWhile isDigit = rest := by
    cases rest with
    | nil => exact ⟨rfl, rfl⟩
    | cons c cs => simp [h.not_digit c rfl]
  rw [spanDigits, List.span_eq_takeWhile_dropWhile, List.takeWhile_append_of_pos hds,
    List.dropWhile_append_of_pos hds, hrest.1, hrest.2, List.append_nil]

theorem head?_digits (hn : 0 < n) : (digits n).head? ≠ some '0' := by
  induction n using Nat.strongRecOn with
  | ind n ih =>
    unfold digits at ih ⊢
    by_cases hlt : n < 10
    · rw [Nat.toDigits_of_lt_base hlt, List.head?_cons, Ne, Option.some.injEq,
        Nat.digitChar_eq_zero]
      omega
    · -- the leading digit is that of a tenth
      have hne : Nat.toDigits 10 (n / 10) ≠ [] := Nat.toDigits_ne_nil
      rw [Nat.toDigits_of_base_le (by decide) (by omega), List.head?_append_of_ne_nil _ hne]
      exact ih (n / 10) (by omega) (by omega)

theorem wholeDigits_digits (h : Ends rest) (n : Nat) :
    wholeDigits (digits n ++ rest) = .ok (digits n, rest) := by
  by_cases hn : n = 0
  · subst hn
    cases rest with
    | nil => rfl
    | cons c cs => exact if_neg (by rw [h.not_digit c rfl]; exact Bool.false_ne_true)
  · have hhead := head?_digits (Nat.pos_of_ne_zero hn)
    have hall : ∀ c ∈ digits n, isDigit c = true := fun c => isDigit_of_mem_digits
    obtain ⟨d, ds, hds⟩ := List.exists_cons_of_ne_nil (digits_ne_nil n)
    have hspan := spanDigits_append hall h
    rw [hds] at hhead hall hspan ⊢
    rw [List.cons_append] at hspan ⊢
    rw [wholeDigits, if_pos (hall d List.mem_cons_self), hspan]
    exact fun heq => hhead (congrArg some heq)

theorem fractionDigits_of_ends (h : Ends rest) : fractionDigits rest = .ok (none, rest) := by
  rw [fractionDigits]
  rintro cs rfl
  exact absurd (h.cases '.' rfl) (by decide)

theorem exponentPart_of_ends (h : Ends rest) : exponentPart rest = .ok (none, rest) := by
  cases rest with
  | nil => rfl
  | cons c cs =>
    have hall : [',', ']', '\x7d', ' ', '\n', '\t', '\r'].all
        (fun c => !(c = 'e' || c = 'E')) = true := by decide
    have hnot := List.all_eq_true.mp hall c (h.cases c rfl)
    rw [Bool.not_eq_true', ← Bool.not_eq_true] at hnot
    exact if_neg hnot

theorem absorb_eq {ds : List Char} (h : Nat.ofDigitChars 10 ds n < 0x10000000000000000) :
    absorb n ds = (Nat.ofDigitChars 10 ds n, []) := by
  induction ds generalizing n with
  | nil => rfl
  | cons d ds ih =>
    have hnext : Nat.ofDigitChars 10 (d :: ds) n = Nat.ofDigitChars 10 ds (10 * n + digitValue d) :=
      Nat.ofDigitChars_cons
    rw [hnext] at h ⊢
    have hle : 10 * n + digitValue d ≤ Nat.ofDigitChars 10 ds (10 * n + digitValue d) := by
      rw [Nat.ofDigitChars_eq_ofDigitChars_zero]
      have hpos : 0 < 10 ^ ds.length := Nat.pow_pos (by decide)
      exact Nat.le_add_right_of_le (Nat.le_mul_of_pos_left _ hpos)
    rw [absorb, if_neg (by omega), ih h]

theorem absorb_digits (h : n < 0x10000000000000000) : absorb 0 (digits n) = (n, []) := by
  have hvalue : Nat.ofDigitChars 10 (digits n) 0 = n := Nat.ofDigitChars_ten_toDigits
  rw [absorb_eq (by rwa [hvalue]), hvalue]

theorem unsignedNumber_digits (h : Ends rest) (negative : Bool) (hn : n < 0x10000000000000000) :
    unsignedNumber negative (digits n ++ rest) = wholeNumber negative n rest := by
  simp only [unsignedNumber, andThen, wholeDigits_digits h, fractionDigits_of_ends h,
    exponentPart_of_ends h, absorb_digits hn]
  exact if_pos rfl

theorem number_digits (n : Nat) (rest : List Char) :
    number (digits n ++ rest) = unsignedNumber false (digits n ++ rest) := by
  obtain ⟨d, ds, hds⟩ := List.exists_cons_of_ne_nil (digits_ne_nil n)
  have hdigit : isDigit d = true := isDigit_of_mem_digits (n := n) (hds ▸ List.mem_cons_self)
  rw [hds, List.cons_append, number]
  intro cs heq
  rw [(List.cons.inj heq).1] at hdigit
  exact absurd hdigit (by decide)

theorem ofInt?_val (k : Integer) : Integer.ofInt? k.val = some k := dif_pos ⟨k.low, k.high⟩

theorem number_integer (h : Ends rest) (k : Integer) :
    number (integer k.val ++ rest) = .ok (.int k, rest) := by
  obtain ⟨hlow, hhigh⟩ := And.intro k.low k.high
  have hof := ofInt?_val k
  cases hval : k.val with
  | ofNat n =>
    rw [hval] at hlow hhigh hof
    have hn : n < 0x10000000000000000 := Int.ofNat_lt.mp hhigh
    have hread : number (digits n ++ rest) = wholeNumber false n rest :=
      (number_digits n rest).trans (unsignedNumber_digits h false hn)
    have hint : Integer.ofInt? (n : Int) = some k := hof
    refine hread.trans ?_
    rw [wholeNumber, if_neg Bool.false_ne_true, hint]
  | negSucc n =>
    rw [hval] at hlow hhigh hof
    have hn : n + 1 < 0x10000000000000000 := by omega
    have hread : number ('-' :: (digits (n + 1) ++ rest)) = wholeNumber true (n + 1) rest :=
      unsignedNumber_digits h true hn
    have hint : Integer.ofInt? (-((n + 1 : Nat) : Int)) = some k := hof
    refine hread.trans ?_
    rw [wholeNumber, if_pos rfl, if_neg (Nat.succ_ne_zero n), hint]

end Mockup.Json.Reader
