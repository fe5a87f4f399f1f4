import Mockup.Text.Lines

/-! Splitting at a separator, and lines of a text that goes on after the end of a line. -/

namespace Mockup.Text

variable {sep : Char} {cs : List Char}

theorem splitAt_ne_nil (sep : Char) (cs : List Char) : splitAt sep cs ≠ [] := by
  cases cs with
  | nil => exact List.cons_ne_nil _ _
  | cons c cs =>
    unfold splitAt
    split
    · exact List.cons_ne_nil _ _
    · split <;> exact List.cons_ne_nil _ _

theorem splitAt_of_not_mem (h : sep ∉ cs) : splitAt sep cs = [cs] := by
  induction cs with
  | nil => rfl
  | cons c cs ih =>
    rw [List.mem_cons, not_or] at h
    rw [splitAt, if_neg (Ne.symm h.1), ih h.2]

theorem splitAt_append (sep : Char) (a b : List Char) :
    splitAt sep (a ++ sep :: b) = splitAt sep a ++ splitAt sep b := by
  induction a with
  | nil =>
    rw [List.nil_append, splitAt, splitAt, if_pos rfl]
    rfl
  | cons c cs ih =>
    rw [List.cons_append, splitAt, splitAt, ih]
    by_cases hc : c = sep
    · rw [if_pos hc, if_pos hc]
      rfl
    · rw [if_neg hc, if_neg hc]
      cases hcs : splitAt sep cs with
      | nil => exact absurd hcs (splitAt_ne_nil sep cs)
      | cons piece pieces => rfl

theorem linesOf_append {ps qs : List (List Char)} (h : qs ≠ []) :
    linesOf (ps ++ qs) = ps.map dropReturn ++ linesOf qs := by
  induction ps with
  | nil => rfl
  | cons line rest ih =>
    have hrest : rest ++ qs ≠ [] := fun hnil => h (List.append_eq_nil_iff.mp hnil).2
    rw [List.cons_append, linesOf, ih, List.map_cons, List.cons_append]
    exact hrest

def lineTexts (cs : List Char) : List (List Char) := (splitAt '\n' cs).map dropReturn

theorem lineTexts_append_newline (a b : List Char) :
    lineTexts (a ++ '\n' :: b) = lineTexts a ++ lineTexts b := by
  rw [lineTexts, splitAt_append, List.map_append]
  rfl

theorem lines_append (a b : List Char) : lines (a ++ '\n' :: b) = lineTexts a ++ lines b := by
  rw [lines, splitAt_append, linesOf_append (splitAt_ne_nil _ _)]
  rfl

theorem lines_newline (cs : List Char) : lines (cs ++ ['\n']) = lineTexts cs :=
  (lines_append cs []).trans (List.append_nil _)

theorem lines_append_newline (a b : List Char) :
    lines (a ++ '\n' :: b) = lines (a ++ ['\n']) ++ lines b := by
  rw [lines_append, lines_newline]

theorem not_mem_of_mem_splitAt {piece : List Char} (h : piece ∈ splitAt sep cs) : sep ∉ piece := by
  induction cs generalizing piece with
  | nil =>
    obtain rfl := List.mem_singleton.mp h
    exact List.not_mem_nil
  | cons c cs ih =>
    unfold splitAt at h
    split at h
    · rcases List.mem_cons.mp h with rfl | h
      · exact List.not_mem_nil
      · exact ih h
    · next hc =>
      split at h
      · obtain rfl := List.mem_singleton.mp h
        exact fun hmem => hc (List.mem_singleton.mp hmem).symm
      · next first pieces hcs =>
        rw [hcs] at ih
        rcases List.mem_cons.mp h with rfl | h
        · exact List.not_mem_cons_of_ne_of_not_mem (Ne.symm hc) (ih List.mem_cons_self)
        · exact ih (List.mem_cons_of_mem _ h)

theorem dropReturn_prefix (line : List Char) : dropReturn line <+: line := by
  unfold dropReturn
  split
  · exact List.dropLast_prefix line
  · exact List.prefix_rfl

theorem exists_prefix_of_mem_linesOf {ps : List (List Char)} {line : List Char}
    (h : line ∈ linesOf ps) : ∃ piece ∈ ps, line <+: piece := by
  fun_induction linesOf ps with
  | case1 => cases h
  | case2 last hempty => cases h
  | case3 last hempty => exact ⟨line, h, List.prefix_rfl⟩
  | case4 first rest hne ih =>
    rcases List.mem_cons.mp h with rfl | h
    · exact ⟨first, List.mem_cons_self, dropReturn_prefix first⟩
    · obtain ⟨piece, hpiece, hfront⟩ := ih h
      exact ⟨piece, List.mem_cons_of_mem _ hpiece, hfront⟩

theorem newline_not_mem_of_mem_lines {line : List Char} (h : line ∈ lines cs) : '\n' ∉ line := by
  obtain ⟨piece, hpiece, hfront⟩ := exists_prefix_of_mem_linesOf h
  exact fun hmem => not_mem_of_mem_splitAt hpiece (hfront.subset hmem)

theorem filterMap_lines {α : Type} {f : List Char → Option α} (hnil : f [] = none)
    (hreturn : ∀ line, f (dropReturn line) = f line) (cs : List Char) :
    (lines cs).filterMap f = (lineTexts cs).filterMap f := by
  have hlines (ps : List (List Char)) :
      (linesOf ps).filterMap f = (ps.map dropReturn).filterMap f := by
    fun_induction linesOf ps with
    | case1 => rfl
    | case2 last hempty =>
      rw [List.isEmpty_iff.mp hempty]
      exact (List.filterMap_cons_none hnil).symm
    | case3 last hempty => rw [List.map_singleton, List.filterMap_cons, List.filterMap_cons, hreturn]
    | case4 line rest hne ih => rw [List.map_cons, List.filterMap_cons, List.filterMap_cons, ih]
  exact hlines _

theorem lines_of_not_mem {line : List Char} (hline : '\n' ∉ line) (hreturn : '\r' ∉ line) :
    lines (line ++ ['\n']) = [line] := by
  have hlast : line.getLast? ≠ some '\r' := fun h => hreturn (List.mem_of_getLast? h)
  have hdrop : dropReturn line = line := if_neg hlast
  rw [lines_newline, lineTexts, splitAt_of_not_mem hline, List.map_singleton, hdrop]

end Mockup.Text
