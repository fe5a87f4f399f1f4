import Mathlib.Tactic.SplitIfs
import Mockup.Bundle.Html
import Mockup.Proofs.Text.Replace

/-! Escaped text. Its entities stand for the characters of the text and for nothing else, and no
bracket is left in it. -/

namespace Mockup.Html

open Text

def unescape : List Char → List Char
  | '&' :: 'a' :: 'm' :: 'p' :: ';' :: cs => '&' :: unescape cs
  | '&' :: 'l' :: 't' :: ';' :: cs => '<' :: unescape cs
  | '&' :: 'g' :: 't' :: ';' :: cs => '>' :: unescape cs
  | '&' :: 'q' :: 'u' :: 'o' :: 't' :: ';' :: cs => '"' :: unescape cs
  | '&' :: '#' :: '3' :: '9' :: ';' :: cs => '\'' :: unescape cs
  | c :: cs => c :: unescape cs
  | [] => []

theorem unescape_cons {c : Char} (h : c ≠ '&') (cs : List Char) :
    unescape (c :: cs) = c :: unescape cs := by
  rw [unescape]
  all_goals
    intro _ hamp
    exact absurd hamp h

theorem unescape_escapeChar (c : Char) (cs : List Char) :
    unescape (escapeChar c ++ cs) = c :: unescape cs := by
  unfold escapeChar
  split_ifs with hamp hless hgreater hquote hapostrophe
  · subst hamp; rfl
  · subst hless; rfl
  · subst hgreater; rfl
  · subst hquote; rfl
  · subst hapostrophe; rfl
  · exact unescape_cons hamp cs

theorem unescape_escape (cs : List Char) : unescape (escape cs) = cs := by
  induction cs with
  | nil => rfl
  | cons c cs ih =>
    unfold escape at ih ⊢
    rw [List.flatMap_cons, unescape_escapeChar, ih]

theorem not_mem_escape {c : Char} (hne : ∀ d, c ∉ escapeChar d) (cs : List Char) :
    c ∉ escape cs := by
  intro hmem
  obtain ⟨d, -, hd⟩ := List.mem_flatMap.mp hmem
  exact hne d hd

theorem less_not_mem_escape (cs : List Char) : '<' ∉ escape cs := by
  apply not_mem_escape
  intro d
  unfold escapeChar
  split_ifs with _ hless
  all_goals first | decide | exact fun h => hless (List.mem_singleton.mp h).symm

/-- Escaping in one pass is escaping the ampersand first and the other characters after it. -/
theorem escape_eq_replaceAll (cs : List Char) :
    escape cs = replaceAll ['\''] "&#39;".toList (replaceAll ['"'] "&quot;".toList
      (replaceAll ['>'] "&gt;".toList (replaceAll ['<'] "&lt;".toList
        (replaceAll ['&'] "&amp;".toList cs)))) := by
  rw [replaceAll_singleton, replaceAll_singleton, replaceAll_singleton, replaceAll_singleton,
    replaceAll_singleton, List.flatMap_assoc, List.flatMap_assoc, List.flatMap_assoc,
    List.flatMap_assoc, escape]
  refine congrArg (List.flatMap · cs) (funext fun c => ?_)
  unfold escapeChar
  split_ifs with hamp hless hgreater hquote hapostrophe
  · subst hamp; decide
  · subst hless; decide
  · subst hgreater; decide
  · subst hquote; decide
  · subst hapostrophe; decide
  · simp only [List.flatMap_singleton, hless, hgreater, hquote, hapostrophe, if_false]

end Mockup.Html
