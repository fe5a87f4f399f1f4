import Mathlib.Tactic.SplitIfs
import Mockup.Json.Printer
import Mockup.Json.Reader.Text

/-! Strings come back from their own text. Each character is read from its escape alone, whatever
follows it. -/

namespace Mockup.Json

open Reader Text

theorem hexUnit?_control (n : Fin 32) :
    hexUnit? '0' '0' (hexDigit (n / 16)) (hexDigit (n % 16)) = some n.val := by
  revert n
  decide

theorem not_surrogate_of_lt {n : Nat} (h : n < 0x20) :
    isTrailing n = false ∧ isLeading n = false := by
  constructor
  · simp only [isTrailing, Bool.and_eq_false_iff, decide_eq_false_iff_not]
    omega
  · simp only [isLeading, Bool.and_eq_false_iff, decide_eq_false_iff_not]
    omega

theorem textBody_plain {c : Char} (hquote : c ≠ '"') (hslash : c ≠ '\\') (hhigh : ¬ c.toNat < 0x20)
    (acc rest : List Char) : textBody acc (c :: rest) = textBody (c :: acc) rest := by
  rw [textBody]
  · rw [if_neg hhigh]
  · exact hquote
  · exact fun _ _ _ _ _ h _ => hslash h
  · exact fun _ h _ => hslash h
  · exact fun h _ => hslash h
  · exact fun _ _ h _ => hslash h

theorem textBody_escapeChar (c : Char) (acc rest : List Char) :
    textBody acc (escapeChar c ++ rest) = textBody (c :: acc) rest := by
  unfold escapeChar
  split_ifs with hquote hslash hback htab hline hfeed hreturn hcontrol
  · subst hquote; simp [textBody, shortEscape?]
  · subst hslash; simp [textBody, shortEscape?]
  · subst hback; simp [textBody, shortEscape?]
  · subst htab; simp [textBody, shortEscape?]
  · subst hline; simp [textBody, shortEscape?]
  · subst hfeed; simp [textBody, shortEscape?]
  · subst hreturn; simp [textBody, shortEscape?]
  · -- the only escape by number is for control characters, none of which is half a pair
    have hread := hexUnit?_control ⟨c.toNat, hcontrol⟩
    obtain ⟨htrailing, hleading⟩ := not_surrogate_of_lt hcontrol
    simp only at hread
    simp only [List.cons_append, List.nil_append]
    rw [textBody, hread]
    simp only [htrailing, hleading, Char.ofNat_toNat]
    rfl
  · exact textBody_plain hquote hslash hcontrol acc rest

theorem textBody_quoted (cs acc rest : List Char) :
    textBody acc (cs.flatMap escapeChar ++ '"' :: rest) = .ok (acc.reverse ++ cs, rest) := by
  induction cs generalizing acc with
  | nil => simp [textBody]
  | cons c cs ih =>
    rw [List.flatMap_cons, List.append_assoc, textBody_escapeChar, ih]
    simp

theorem quotedText_quoted (s : String) (rest : List Char) :
    quotedText (quoted s ++ rest) = .ok (s, rest) := by
  have hbody := textBody_quoted s.toList [] rest
  simp only [List.reverse_nil, List.nil_append] at hbody
  simp only [quoted, List.cons_append, List.append_assoc, List.nil_append, quotedText, hbody,
    String.ofList_toList]

end Mockup.Json
