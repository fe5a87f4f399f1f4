import Mockup.Proofs.Payload.Reading
import Mockup.Proofs.Text.Ends

/-! Items of notes, and what is left on them. Cleaning takes each kind of mark away once and in a
fixed order, so that a mark comes to light where another kind, or white space, stood before it. -/

namespace Mockup.Bullets

open Text

variable {m c : Char} {cs run item raw : List Char} {notes t : String}

section Pairs

theorem deletePairs_sublist (m : Char) (cs : List Char) : (deletePairs m cs).Sublist cs := by
  fun_induction deletePairs m cs with
  | case1 => exact .refl _
  | case2 c => exact .refl _
  | case3 c d cs _ ih => exact (ih.cons d).cons c
  | case4 c d cs _ ih => exact ih.cons_cons c

theorem deletePairs_cons (hc : c ≠ m) (cs : List Char) :
    deletePairs m (c :: cs) = c :: deletePairs m cs := by
  cases cs with
  | nil => rfl
  | cons d cs => exact if_neg fun h => hc h.1

theorem head?_deletePairs (hc : c ≠ m) (cs : List Char) :
    (deletePairs m (c :: cs)).head? = some c := by
  rw [deletePairs_cons hc, List.head?_cons]

theorem deletePairs_prepend (hrun : m ∉ run) (cs : List Char) :
    deletePairs m (run ++ cs) = run ++ deletePairs m cs := by
  induction run with
  | nil => rfl
  | cons c run ih =>
    rw [List.mem_cons, not_or] at hrun
    rw [List.cons_append, deletePairs_cons (Ne.symm hrun.1), ih hrun.2, List.cons_append]

theorem deletePairs_append (hrun : m ∉ run) (cs : List Char) :
    deletePairs m (cs ++ run) = deletePairs m cs ++ run := by
  have hkept : deletePairs m run = run := by
    have hprepend := deletePairs_prepend hrun []
    rwa [List.append_nil, deletePairs, List.append_nil] at hprepend
  fun_induction deletePairs m cs with
  | case1 => exact hkept
  | case2 c =>
    cases run with
    | nil => rfl
    | cons d run =>
      have hd : d ≠ m := fun hd => hrun (hd ▸ List.mem_cons_self)
      exact (if_neg fun h => hd h.2).trans (congrArg (c :: ·) hkept)
  | case3 c d cs hpair ih => exact (if_pos hpair).trans ih
  | case4 c d cs hnot ih => exact (if_neg hnot).trans (congrArg (c :: ·) ih)

theorem not_infix_deletePairs (m : Char) (cs : List Char) : ¬ [m, m] <:+: deletePairs m cs := by
  fun_induction deletePairs m cs with
  | case1 => simp
  | case2 c => exact fun h => absurd h.length_le (by simp)
  | case3 c d cs _ ih => exact ih
  | case4 c d cs hnot ih =>
    rw [List.infix_cons_iff, List.prefix_cons_iff]
    rintro ((hnil | ⟨rest, hrest, hprefix⟩) | hinfix)
    · cases hnil
    · obtain ⟨rfl, rfl⟩ := List.cons_eq_cons.mp hrest
      -- the character that follows is not the one of the pairs, and so it stays
      have hd : d ≠ m := fun hd => hnot ⟨rfl, hd⟩
      have hhead := head?_deletePairs hd cs
      obtain ⟨back, hback⟩ := hprefix
      rw [← hback] at hhead
      exact hd (Option.some.inj hhead).symm
    · exact ih hinfix

theorem deletePairs_eq_self_iff : deletePairs m cs = cs ↔ ¬ [m, m] <:+: cs := by
  refine ⟨fun h => h ▸ not_infix_deletePairs m cs, fun h => ?_⟩
  fun_induction deletePairs m cs with
  | case1 => rfl
  | case2 c => rfl
  | case3 c d cs hpair ih =>
    obtain ⟨rfl, rfl⟩ := hpair
    exact absurd ⟨[], cs, rfl⟩ h
  | case4 c d cs _ ih =>
    rw [List.infix_cons_iff, not_or] at h
    rw [ih h.2]

end Pairs

section Kinds

theorem kinds_of_isEmphasis (h : isEmphasis c = true) :
    isBlank c = false ∧ isPunctuation c = false := by
  simp only [isEmphasis, Bool.or_eq_true, decide_eq_true_eq] at h
  rcases h with (rfl | rfl) | rfl <;> decide

theorem kinds_of_isPunctuation (h : isPunctuation c = true) :
    isBlank c = false ∧ isEmphasis c = false := by
  simp only [isPunctuation, Bool.or_eq_true, decide_eq_true_eq] at h
  rcases h with ((((rfl | rfl) | rfl) | rfl) | rfl) | rfl <;> decide

theorem kinds_of_isBlank (h : isBlank c = true) :
    isEmphasis c = false ∧ isPunctuation c = false := by
  refine ⟨Bool.eq_false_iff.mpr fun he => ?_, Bool.eq_false_iff.mpr fun hp => ?_⟩
  · rw [(kinds_of_isEmphasis he).1] at h
    cases h
  · rw [(kinds_of_isPunctuation hp).1] at h
    cases h

end Kinds

section Ends

def unpaired (raw : List Char) : List Char := deletePairs '_' (deletePairs '*' raw)

def dropFront (cs : List Char) : List Char :=
  ((cs.dropWhile isBlank).dropWhile isEmphasis).dropWhile isBlank

def dropBack (cs : List Char) : List Char :=
  ((dropFront cs).dropWhile isPunctuation).dropWhile isBlank

theorem reverse_dropBack (cs : List Char) :
    (dropBack cs.reverse).reverse = dropEnd isBlank (dropEnd isPunctuation
      (dropEnd isBlank (dropEnd isEmphasis (dropEnd isBlank cs)))) := by
  simp only [dropBack, dropFront, dropEnd, List.reverse_reverse]

/-- Cleaning works at the two ends of a text apart, first at the front. -/
theorem clean_eq_back (raw : List Char) :
    clean raw = (dropBack (dropFront (unpaired raw)).reverse).reverse := by
  rw [reverse_dropBack]
  simp only [clean, trim, strip, ← dropEnd_dropWhile, List.dropWhile_idempotent, dropFront, unpaired]

theorem clean_eq_front (raw : List Char) :
    clean raw = dropFront (dropBack (unpaired raw).reverse).reverse := by
  rw [reverse_dropBack]
  simp only [clean, trim, strip, dropEnd_dropWhile, List.dropWhile_idempotent, dropFront, unpaired]

/-- At the front, emphasis stands behind emphasis and white space. -/
def Nested (cs : List Char) : Prop :=
  ∃ w e s c rest, cs = w ++ (e ++ (s ++ c :: rest)) ∧ Consists isBlank w ∧
    (e ≠ [] ∧ Consists isEmphasis e) ∧ (s ≠ [] ∧ Consists isBlank s) ∧ isEmphasis c = true

/-- At the front of a text that is read backwards, emphasis stands behind punctuation, or
punctuation behind punctuation and white space. -/
def Closing (cs : List Char) : Prop :=
  ∃ w e s q s' c rest, cs = w ++ (e ++ (s ++ (q ++ (s' ++ c :: rest)))) ∧ Consists isBlank w ∧
    Consists isEmphasis e ∧ Consists isBlank s ∧ (q ≠ [] ∧ Consists isPunctuation q) ∧
    Consists isBlank s' ∧ (isEmphasis c = true ∨ s' ≠ [] ∧ isPunctuation c = true)

theorem head?_dropFront (cs : List Char) : ∀ c ∈ (dropFront cs).head?, isBlank c = false :=
  fun _ => head?_dropWhile

theorem exists_dropFront (cs : List Char) :
    ∃ w e s, cs = w ++ (e ++ (s ++ dropFront cs)) ∧ Consists isBlank w ∧ Consists isEmphasis e ∧
      Consists isBlank s ∧
      ((∃ c ∈ (dropFront cs).head?, isEmphasis c = true) → e ≠ [] ∧ s ≠ []) := by
  obtain ⟨w, hw, hblank, hfirst⟩ := exists_run isBlank cs
  obtain ⟨e, he, hemphasis, hsecond⟩ := exists_run isEmphasis (cs.dropWhile isBlank)
  obtain ⟨s, hs, hblank', -⟩ :=
    exists_run isBlank ((cs.dropWhile isBlank).dropWhile isEmphasis)
  refine ⟨w, e, s, ?_, hblank, hemphasis, hblank', fun ⟨c, hc, hce⟩ => ?_⟩
  · conv_lhs => rw [hw, he, hs]
    rfl
  · have hsne : s ≠ [] := by
      rintro rfl
      have hnot := hsecond c (by rw [hs]; exact hc)
      rw [hce] at hnot
      cases hnot
    refine ⟨?_, hsne⟩
    rintro rfl
    obtain ⟨d, ds, rfl⟩ := List.exists_cons_of_ne_nil hsne
    have hnot := hfirst d (by rw [he, hs]; rfl)
    rw [hblank' d List.mem_cons_self] at hnot
    cases hnot

theorem dropFront_runs {w e s rest : List Char} (hw : Consists isBlank w)
    (he : Consists isEmphasis e) (hs : Consists isBlank s)
    (hrest : ∀ c ∈ rest.head?, isBlank c = false ∧ isEmphasis c = false) :
    dropFront (w ++ (e ++ (s ++ rest))) = rest := by
  have hblank : ∀ c ∈ rest.head?, isBlank c = false := fun c hc => (hrest c hc).1
  have hemphasis : ∀ c ∈ rest.head?, isEmphasis c = false := fun c hc => (hrest c hc).2
  rw [dropFront, List.dropWhile_append_of_pos hw]
  by_cases hnone : e = []
  · rw [hnone, List.nil_append, dropWhile_run hs hblank, dropWhile_eq_self hemphasis,
      dropWhile_eq_self hblank]
  · have hfirst := head?_run hnone he (fun c hc => (kinds_of_isEmphasis hc).1) (s ++ rest)
    have hsecond : ∀ c ∈ (s ++ rest).head?, isEmphasis c = false := by
      by_cases hnone' : s = []
      · rwa [hnone', List.nil_append]
      · exact head?_run hnone' hs (fun c hc => (kinds_of_isBlank hc).1) rest
    rw [dropWhile_eq_self hfirst, dropWhile_run he hsecond, dropWhile_run hs hblank]

theorem Nested.exists_dropFront (h : Nested cs) :
    ∃ c rest, dropFront cs = c :: rest ∧ isEmphasis c = true := by
  obtain ⟨w, e, s, c, rest, rfl, hw, ⟨hene, he⟩, ⟨hsne, hs⟩, hc⟩ := h
  have hfirst := head?_run hene he (fun d hd => (kinds_of_isEmphasis hd).1) (s ++ c :: rest)
  have hsecond := head?_run hsne hs (fun d hd => (kinds_of_isBlank hd).1) (c :: rest)
  have hthird : ∀ d ∈ (c :: rest).head?, isBlank d = false :=
    forall_mem_head?_cons (kinds_of_isEmphasis hc).1 rest
  refine ⟨c, rest, ?_, hc⟩
  rw [dropFront, dropWhile_run hw hfirst, dropWhile_run he hsecond, dropWhile_run hs hthird]

theorem nested_iff : Nested cs ↔ ∃ c ∈ (dropFront cs).head?, isEmphasis c = true := by
  constructor
  · intro h
    obtain ⟨c, rest, hdrop, hc⟩ := h.exists_dropFront
    exact ⟨c, by rw [hdrop]; rfl, hc⟩
  · intro hfirst
    obtain ⟨w, e, s, hcs, hw, he, hs, hne⟩ := exists_dropFront cs
    obtain ⟨hene, hsne⟩ := hne hfirst
    obtain ⟨c, hc, hce⟩ := hfirst
    obtain ⟨rest, hrest⟩ := List.head?_eq_some_iff.mp hc
    exact ⟨w, e, s, c, rest, by rw [← hrest]; exact hcs, hw, ⟨hene, he⟩, ⟨hsne, hs⟩, hce⟩

theorem Nested.dropBack_eq (h : Nested cs) : dropBack cs = dropFront cs := by
  obtain ⟨c, rest, hdrop, hc⟩ := h.exists_dropFront
  obtain ⟨hblank, hpunctuation⟩ := kinds_of_isEmphasis hc
  rw [dropBack, hdrop, List.dropWhile_cons_of_neg (Bool.eq_false_iff.mp hpunctuation),
    List.dropWhile_cons_of_neg (Bool.eq_false_iff.mp hblank)]

theorem Closing.exists_dropBack (h : Closing cs) :
    ∃ c rest, dropBack cs = c :: rest ∧ (isEmphasis c = true ∨ isPunctuation c = true) := by
  obtain ⟨w, e, s, q, s', c, rest, rfl, hw, he, hs, ⟨hqne, hq⟩, hs', hc⟩ := h
  have hblank : ∀ d ∈ (c :: rest).head?, isBlank d = false := by
    refine forall_mem_head?_cons ?_ rest
    rcases hc with hc | ⟨-, hc⟩
    · exact (kinds_of_isEmphasis hc).1
    · exact (kinds_of_isPunctuation hc).1
  have hpunctuation : ∀ d ∈ (s' ++ c :: rest).head?, isPunctuation d = false := by
    by_cases hnone : s' = []
    · have hemphasis := hc.resolve_right fun h => h.1 hnone
      rw [hnone]
      exact forall_mem_head?_cons (kinds_of_isEmphasis hemphasis).2 rest
    · exact head?_run hnone hs' (fun d hd => (kinds_of_isBlank hd).2) (c :: rest)
  have hfront : dropFront (w ++ (e ++ (s ++ (q ++ (s' ++ c :: rest))))) = q ++ (s' ++ c :: rest) :=
    dropFront_runs hw he hs fun d hd =>
      ⟨head?_run hqne hq (fun d hd => (kinds_of_isPunctuation hd).1) _ d hd,
        head?_run hqne hq (fun d hd => (kinds_of_isPunctuation hd).2) _ d hd⟩
  refine ⟨c, rest, ?_, hc.imp_right And.right⟩
  rw [dropBack, hfront, dropWhile_run hq hpunctuation, dropWhile_run hs' hblank]

theorem nested_or_closing_iff : Nested cs ∨ Closing cs ↔
    ∃ c ∈ (dropBack cs).head?, isEmphasis c = true ∨ isPunctuation c = true := by
  constructor
  · rintro (h | h)
    · rw [h.dropBack_eq]
      obtain ⟨c, hc, hce⟩ := nested_iff.mp h
      exact ⟨c, hc, .inl hce⟩
    · obtain ⟨c, rest, hdrop, hc⟩ := h.exists_dropBack
      exact ⟨c, by rw [hdrop]; rfl, hc⟩
  · rintro ⟨c, hc, hmark⟩
    obtain ⟨rest, hrest⟩ := List.head?_eq_some_iff.mp hc
    obtain ⟨q, hfront, hq, hfirst⟩ := exists_run isPunctuation (dropFront cs)
    obtain ⟨s', hback, hs', -⟩ := exists_run isBlank ((dropFront cs).dropWhile isPunctuation)
    have hback : (dropFront cs).dropWhile isPunctuation = s' ++ c :: rest := by
      rw [← hrest]
      exact hback
    rw [hback] at hfront hfirst
    by_cases hnone : q = []
    · -- nothing is dropped after the front, and so the mark came to light there
      rw [hnone, List.nil_append] at hfront
      have hnil : s' = [] := by
        by_contra hne
        obtain ⟨d, ds, rfl⟩ := List.exists_cons_of_ne_nil hne
        have hnot := head?_dropFront cs d (by rw [hfront]; rfl)
        rw [hs' d List.mem_cons_self] at hnot
        cases hnot
      rw [hnil, List.nil_append] at hfront hfirst
      have hemphasis := hmark.resolve_right fun hpunctuation =>
        absurd (hfirst c rfl) (by rw [hpunctuation]; exact Bool.noConfusion)
      exact .inl (nested_iff.mpr ⟨c, by rw [hfront]; rfl, hemphasis⟩)
    · obtain ⟨w, e, s, hcs, hw, he, hs, -⟩ := exists_dropFront cs
      rw [hfront] at hcs
      refine .inr ⟨w, e, s, q, s', c, rest, hcs, hw, he, hs, ⟨hnone, hq⟩, hs', ?_⟩
      refine hmark.imp_right fun hpunctuation => ⟨?_, hpunctuation⟩
      rintro rfl
      have hnot := hfirst c rfl
      rw [hpunctuation] at hnot
      cases hnot

end Ends

structure IsClean (item : List Char) : Prop where
  pairs : ¬ ['*', '*'] <:+: item ∧ ¬ ['_', '_'] <:+: item
  first : ∀ c ∈ item.head?, isBlank c = false ∧ isEmphasis c = false
  last : ∀ c ∈ item.getLast?, isBlank c = false ∧ isEmphasis c = false ∧ isPunctuation c = false

/-- Something that cleaning takes away comes to light when it has been looked for already: two
stars between which underscores stood, or a mark at one of the ends. -/
def Exposes (cs : List Char) : Prop :=
  ['*', '*'] <:+: strip isEmphasis (trim cs) ∨ Nested cs ∨ Nested cs.reverse ∨ Closing cs.reverse

section Clean

theorem isInfix_clean (raw : List Char) : clean raw <:+: strip isEmphasis (trim (unpaired raw)) :=
  (isInfix_strip isBlank _).trans ((isPrefix_dropEnd isPunctuation _).isInfix.trans
    (isInfix_strip isBlank _))

theorem isInfix_clean_unpaired (raw : List Char) : clean raw <:+: unpaired raw :=
  (isInfix_clean raw).trans ((isInfix_strip isEmphasis _).trans (isInfix_strip isBlank _))

theorem clean_eq_self_iff : clean item = item ↔ IsClean item := by
  constructor
  · intro h
    have hunpaired : item.Sublist (unpaired item) := by
      conv_lhs => rw [← h]
      exact (isInfix_clean_unpaired item).sublist
    have hlines := deletePairs_sublist '_' (deletePairs '*' item)
    have hstars : deletePairs '*' item = item :=
      (deletePairs_sublist '*' item).antisymm (hunpaired.trans hlines)
    have hsame : unpaired item = item :=
      (hlines.trans (deletePairs_sublist '*' item)).antisymm hunpaired
    have htrim : trim item = item := by
      conv_lhs => rw [← h]
      conv_rhs => rw [← h]
      exact strip_strip isBlank _
    have hclean : clean item = trim (dropEnd isPunctuation (trim (strip isEmphasis item))) := by
      conv_rhs => rw [← htrim, ← hsame]
      rfl
    rw [h] at hclean
    have hstrip : strip isEmphasis item = item := by
      refine (isInfix_strip isEmphasis item).sublist.antisymm ?_
      conv_lhs => rw [hclean]
      exact ((isInfix_strip isBlank _).trans ((isPrefix_dropEnd isPunctuation _).isInfix.trans
        (isInfix_strip isBlank _))).sublist
    rw [hstrip, htrim] at hclean
    have hdrop : dropEnd isPunctuation item = item := by
      refine (isPrefix_dropEnd isPunctuation item).sublist.antisymm ?_
      conv_lhs => rw [hclean]
      exact (isInfix_strip isBlank _).sublist
    have hblank := strip_eq_self_iff.mp htrim
    have hemphasis := strip_eq_self_iff.mp hstrip
    have hpunctuation := dropEnd_eq_self_iff.mp hdrop
    rw [unpaired, hstars] at hsame
    exact ⟨⟨deletePairs_eq_self_iff.mp hstars, deletePairs_eq_self_iff.mp hsame⟩,
      fun c hc => ⟨hblank.1 c hc, hemphasis.1 c hc⟩,
      fun c hc => ⟨hblank.2 c hc, hemphasis.2 c hc, hpunctuation c hc⟩⟩
  · rintro ⟨⟨hstars, hlines⟩, hfirst, hlast⟩
    have htrim : trim item = item :=
      strip_eq_self_iff.mpr ⟨fun c hc => (hfirst c hc).1, fun c hc => (hlast c hc).1⟩
    have hstrip : strip isEmphasis item = item :=
      strip_eq_self_iff.mpr ⟨fun c hc => (hfirst c hc).2, fun c hc => (hlast c hc).2.1⟩
    have hdrop : dropEnd isPunctuation item = item :=
      dropEnd_eq_self_iff.mpr fun c hc => (hlast c hc).2.2
    rw [clean, deletePairs_eq_self_iff.mpr hstars, deletePairs_eq_self_iff.mpr hlines]
    simp only [htrim, hstrip, hdrop]

theorem not_underscores_clean (raw : List Char) : ¬ ['_', '_'] <:+: clean raw := fun h =>
  not_infix_deletePairs '_' _ (h.trans (isInfix_clean_unpaired raw))

theorem stars_clean_iff :
    ['*', '*'] <:+: clean raw ↔ ['*', '*'] <:+: strip isEmphasis (trim (unpaired raw)) := by
  refine ⟨fun h => h.trans (isInfix_clean raw), fun h => ?_⟩
  have hblank : isBlank '*' = false := rfl
  exact pair_strip hblank (pair_dropEnd rfl (pair_strip hblank h))

theorem head?_clean (hne : clean raw ≠ []) :
    (clean raw).head? = (dropFront (unpaired raw)).head? := by
  have hback (cs : List Char) : dropBack cs <:+ cs :=
    (List.dropWhile_suffix _).trans <| (List.dropWhile_suffix _).trans <|
      (List.dropWhile_suffix _).trans <| (List.dropWhile_suffix _).trans (List.dropWhile_suffix _)
  have hfront : clean raw <+: dropFront (unpaired raw) := by
    rw [clean_eq_back, ← List.reverse_suffix, List.reverse_reverse]
    exact hback _
  obtain ⟨rest, hrest⟩ := hfront
  rw [← hrest, List.head?_append_of_ne_nil _ hne]

theorem getLast?_clean (hne : clean raw ≠ []) :
    (clean raw).getLast? = (dropBack (unpaired raw).reverse).head? := by
  have hfront (cs : List Char) : dropFront cs <:+ cs :=
    (List.dropWhile_suffix _).trans <| (List.dropWhile_suffix _).trans (List.dropWhile_suffix _)
  have hback : clean raw <:+ (dropBack (unpaired raw).reverse).reverse := by
    rw [clean_eq_front]
    exact hfront _
  obtain ⟨front, hrest⟩ := hback
  rw [← List.getLast?_reverse, ← hrest, List.getLast?_append_of_ne_nil _ hne]

theorem isClean_clean_iff (hne : clean raw ≠ []) :
    IsClean (clean raw) ↔ ¬ Exposes (unpaired raw) := by
  have htrim : trim (clean raw) = clean raw := strip_strip isBlank _
  obtain ⟨hstart, hend⟩ := strip_eq_self_iff.mp htrim
  rw [Exposes, ← stars_clean_iff, nested_iff, nested_or_closing_iff, ← head?_clean hne,
    ← getLast?_clean hne]
  constructor
  · rintro ⟨⟨hstars, -⟩, hfirst, hlast⟩ (hpair | ⟨c, hc, hce⟩ | ⟨c, hc, hmark⟩)
    · exact hstars hpair
    · rw [(hfirst c hc).2] at hce
      cases hce
    · rw [(hlast c hc).2.1, (hlast c hc).2.2] at hmark
      exact hmark.elim Bool.noConfusion Bool.noConfusion
  · intro hnone
    rw [not_or, not_or] at hnone
    obtain ⟨hstars, hfirst, hlast⟩ := hnone
    refine ⟨⟨hstars, not_underscores_clean raw⟩, fun c hc => ⟨hstart c hc, ?_⟩,
      fun c hc => ⟨hend c hc, ?_, ?_⟩⟩
    · exact Bool.eq_false_iff.mpr fun hce => hfirst ⟨c, hc, hce⟩
    · exact Bool.eq_false_iff.mpr fun hce => hlast ⟨c, hc, .inl hce⟩
    · exact Bool.eq_false_iff.mpr fun hcp => hlast ⟨c, hc, .inr hcp⟩

end Clean

/-- An item is never empty and has no white space around it and no two underscores in a row. It is
clean, so that cleaning it again changes nothing, unless a mark comes to light too late in its
line. -/
theorem extract_cleaned (h : t ∈ extract notes) :
    Filled t ∧ ¬ ['_', '_'] <:+: t.toList ∧ (clean t.toList = t.toList ↔ IsClean t.toList) ∧
      ∃ line ∈ lines notes.toList, ∃ raw, itemOfLine? line = some raw ∧ t.toList = clean raw ∧
        (IsClean t.toList ↔ ¬ Exposes (unpaired raw)) := by
  obtain ⟨line, hline, raw, hraw, hclean, hne⟩ := Payload.exists_of_mem_extract h
  have hleft : clean raw ≠ [] := by
    rw [← hclean]
    exact fun hnil => hne (String.toList_injective (by rw [hnil]; rfl))
  refine ⟨Payload.filled_of_mem_extract h, ?_, clean_eq_self_iff, line, hline, raw, hraw, hclean, ?_⟩
  · rw [hclean]
    exact not_underscores_clean raw
  · rw [hclean]
    exact isClean_clean_iff hleft

theorem extract_cleaned_bold :
    "Reduce churn" ∈ extract "• **Reduce churn**!" ∧ IsClean "Reduce churn".toList := by
  have hmem : "Reduce churn" ∈ extract "• **Reduce churn**!" := by decide
  obtain ⟨-, -, hclean, -⟩ := extract_cleaned hmem
  exact ⟨hmem, hclean.mp (by decide)⟩

theorem marks_left_on_items :
    extract "• *Reduce churn*!\n- Later. .\n- * *Plan\n- a*__*b" =
        ["Reduce churn*", "Later.", "*Plan", "a**b"] ∧
      ∀ t ∈ ["Reduce churn*", "Later.", "*Plan", "a**b"], ¬ IsClean t.toList := by
  refine ⟨by decide, fun t ht hclean => ?_⟩
  have hchanged : ∀ t ∈ ["Reduce churn*", "Later.", "*Plan", "a**b"],
      clean t.toList ≠ t.toList := by decide
  exact hchanged t ht (clean_eq_self_iff.mpr hclean)

end Mockup.Bullets
