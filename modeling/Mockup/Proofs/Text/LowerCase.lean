import Mockup.Proofs.Text.Trim
import Mockup.Text.LowerCase

/-! Lower-casing makes no white space. A character that is not blank is replaced by characters that
are not, so that a text that ends with one keeps such an end. -/

namespace Mockup.Text

def blankRanges : List (Nat × Nat) :=
  [(0x9, 0xd), (0x20, 0x20), (0x85, 0x85), (0xa0, 0xa0), (0x1680, 0x1680), (0x2000, 0x200a),
    (0x2028, 0x2029), (0x202f, 0x202f), (0x205f, 0x205f), (0x3000, 0x3000)]

theorem inRanges_of_isBlank {c : Char} (h : isBlank c = true) : inRanges blankRanges c = true := by
  have hrange {a b : Char} (hab : (a.toNat, b.toNat) ∈ blankRanges) (ha : a ≤ c) (hb : c ≤ b) :
      inRanges blankRanges c = true := by
    refine List.any_eq_true.mpr ⟨_, hab, ?_⟩
    rw [Bool.and_eq_true, decide_eq_true_eq, decide_eq_true_eq]
    exact ⟨ha, hb⟩
  simp only [isBlank, Bool.or_eq_true, Bool.and_eq_true, decide_eq_true_eq] at h
  rcases h with ((((((((((rfl | h) | rfl) | rfl) | rfl) | h) | rfl) | rfl) | rfl) | rfl) | rfl)
  · rfl
  · exact hrange (by decide) h.1 h.2
  · rfl
  · rfl
  · rfl
  · exact hrange (by decide) h.1 h.2
  · rfl
  · rfl
  · rfl
  · rfl
  · rfl

namespace LowerCase

def Run.MissesBlank (r : Run) : Prop :=
  ∀ b ∈ blankRanges, (b.2 : Int) < r.first + r.offset ∨ r.last + r.offset < (b.1 : Int)

instance (r : Run) : Decidable r.MissesBlank :=
  inferInstanceAs (Decidable (∀ b ∈ blankRanges, _))

theorem missesBlank_of_mem_runs : ∀ r ∈ runs, r.MissesBlank := by decide +kernel

theorem Run.MissesBlank.not_blank {r : Run} (h : r.MissesBlank) {n : Nat} (hfirst : r.first ≤ n)
    (hlast : n ≤ r.last) : isBlank (Char.ofNat ((n : Int) + r.offset).toNat) = false := by
  rw [← Bool.not_eq_true]
  intro hblank
  obtain ⟨b, hb, hin⟩ := List.any_eq_true.mp (inRanges_of_isBlank hblank)
  rw [Bool.and_eq_true, decide_eq_true_eq, decide_eq_true_eq] at hin
  by_cases hvalid : ((n : Int) + r.offset).toNat.isValidChar
  · have hcode : (Char.ofNat ((n : Int) + r.offset).toNat).toNat = ((n : Int) + r.offset).toNat := by
      rw [Char.ofNat, dif_pos hvalid]
      rfl
    rw [hcode] at hin
    have hpositive : ∀ b ∈ blankRanges, b.1 ≠ 0 := by decide
    have hlow := hpositive b hb
    have hmiss := h b hb
    omega
  · -- what is no code point becomes the null character
    rw [Char.ofNat, dif_neg hvalid] at hblank
    revert hblank
    decide

theorem char_not_blank {c : Char} (h : isBlank c = false) :
    char c ≠ [] ∧ ∀ d ∈ char c, isBlank d = false := by
  rw [char]
  split_ifs with hascii hupper
  · -- the capitals of the alphabet are a run with the others
    rw [Bool.and_eq_true, decide_eq_true_eq, decide_eq_true_eq] at hupper
    have hrun : (⟨0x41, 0x5a, 1, 32⟩ : Run).MissesBlank := by decide
    refine ⟨List.cons_ne_nil _ _, fun d hd => ?_⟩
    obtain rfl := List.mem_singleton.mp hd
    exact hrun.not_blank hupper.1 hupper.2
  · exact ⟨List.cons_ne_nil _ _, by simpa using h⟩
  · rw [beyondAscii]
    split_ifs with hdotted
    · have hdotless : isBlank 'i' = false := by decide
      have hdot : isBlank '\u0307' = false := by decide
      refine ⟨List.cons_ne_nil _ _, List.forall_mem_cons.mpr ⟨hdotless, ?_⟩⟩
      exact List.forall_mem_singleton.mpr hdot
    · split
      · next r hr =>
        have hmem := List.mem_of_find?_eq_some hr
        have hrun := List.find?_some hr
        simp only [Bool.and_eq_true, decide_eq_true_eq] at hrun
        refine ⟨List.cons_ne_nil _ _, fun d hd => ?_⟩
        obtain rfl := List.mem_singleton.mp hd
        exact (missesBlank_of_mem_runs r hmem).not_blank hrun.1.1 hrun.1.2
      · exact ⟨List.cons_ne_nil _ _, by simpa using h⟩

theorem getLast?_scan {before cs : List Char} {c : Char} (hc : cs.getLast? = some c)
    (hblank : isBlank c = false) :
    ∃ d, (scan before cs).getLast? = some d ∧ isBlank d = false := by
  -- what the last character becomes stands last, whatever stands before it
  induction cs generalizing before with
  | nil => cases hc
  | cons x xs ih =>
    rw [scan, List.getLast?_append]
    cases xs with
    | nil =>
      obtain rfl := Option.some.inj hc
      obtain ⟨hne, hletters⟩ := char_not_blank hblank
      rw [scan, List.getLast?_nil, Option.none_or]
      split_ifs with hsigma hfinal
      · exact ⟨_, rfl, by decide⟩
      · exact ⟨_, rfl, by decide⟩
      · exact ⟨_, List.getLast?_eq_some_getLast hne, hletters _ (List.getLast_mem hne)⟩
    | cons y ys =>
      obtain ⟨d, hd, hdb⟩ := @ih (x :: before) hc
      exact ⟨d, by rw [hd, Option.some_or], hdb⟩

end LowerCase

theorem EndsFilled.lowerCase {s : String} (h : EndsFilled s) : EndsFilled (lowerCase s) := by
  obtain ⟨c, hc, hblank⟩ := h
  rw [EndsFilled, Text.lowerCase, String.toList_ofList]
  exact LowerCase.getLast?_scan hc hblank

end Mockup.Text
