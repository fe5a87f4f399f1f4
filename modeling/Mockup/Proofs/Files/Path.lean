import Mockup.Files.Path
import Mockup.Proofs.Text.Lines

/-! Paths of entries. Joining a plain name to a path adds one piece and one part at the end,
whether or not the path ends in a slash. -/

namespace Mockup.Files.Path

open Text

/-- What can stand as the name of an entry: no separator, no NUL, and no step in place or up. -/
structure IsName (e : String) : Prop where
  noSlash : '/' ∉ e.toList
  noNul : '\x00' ∉ e.toList
  notTrivial : isTrivial e = false
  notParent : e ≠ ".."

variable {p : Path} {e a b : String}

theorem IsName.ne_empty (h : IsName e) : e ≠ "" := by
  rintro rfl
  exact absurd h.notTrivial (by decide)

theorem IsName.ne_dot (h : IsName e) : e ≠ "." := by
  rintro rfl
  exact absurd h.notTrivial (by decide)

theorem isName_of_forall {allowed : Char → Bool} (hne : e ≠ "")
    (hall : ∀ c ∈ e.toList, allowed c = true) (hslash : allowed '/' = false)
    (hnul : allowed '\x00' = false) (hdot : allowed '.' = false) : IsName e := by
  have hnot {c : Char} (hc : allowed c = false) : c ∉ e.toList := by
    intro hmem
    rw [hall c hmem] at hc
    cases hc
  have hdots (s : String) (hs : '.' ∈ s.toList) : e ≠ s := fun heq => hnot hdot (heq ▸ hs)
  refine ⟨hnot hslash, hnot hnul, ?_, hdots ".." (by decide)⟩
  simp [isTrivial, hne, hdots "." (by decide)]

def stem (p : Path) : List String :=
  if p.text = "" then []
  else if p.text.toList.getLast? = some '/' then p.pieces.dropLast
  else p.pieces

theorem toList_join (h : IsName e) :
    (p.join e).text.toList =
      if p.text = "" then e.toList
      else if p.text.toList.getLast? = some '/' then p.text.toList ++ e.toList
      else p.text.toList ++ '/' :: e.toList := by
  have hhead : e.toList.head? ≠ some '/' := fun hs => h.noSlash (List.mem_of_mem_head? hs)
  have hslash : "/".toList = ['/'] := rfl
  unfold join
  simp only [hhead, decide_false, Bool.false_or, decide_eq_true_eq]
  split
  · rfl
  · split
    · rw [String.toList_append]
    · rw [String.toList_append, String.toList_append, hslash, List.append_assoc]
      rfl

theorem text_ne_empty_of_getLast? {c : Char} (h : p.text.toList.getLast? = some c) :
    p.text ≠ "" := by
  intro hempty
  rw [hempty] at h
  cases h

theorem getLast?_join (h : IsName e) :
    ∃ c, (p.join e).text.toList.getLast? = some c ∧ c ≠ '/' := by
  have hne : e.toList ≠ [] := fun hnil => h.ne_empty (String.toList_injective hnil)
  refine ⟨e.toList.getLast hne, ?_, fun hc => h.noSlash (hc ▸ List.getLast_mem hne)⟩
  rw [toList_join h]
  split
  · exact List.getLast?_eq_some_getLast hne
  · split
    · rw [List.getLast?_append, List.getLast?_eq_some_getLast hne]
      rfl
    · rw [List.getLast?_append, List.getLast?_cons, List.getLast?_eq_some_getLast hne]
      rfl

theorem text_join_ne_empty (h : IsName e) : (p.join e).text ≠ "" := by
  obtain ⟨c, hc, -⟩ := getLast?_join (p := p) h
  exact text_ne_empty_of_getLast? hc

theorem pieces_join (h : IsName e) : (p.join e).pieces = p.stem ++ [e] := by
  have hname : (splitAt '/' e.toList).map String.ofList = [e] := by
    rw [splitAt_of_not_mem h.noSlash, List.map_singleton, String.ofList_toList]
  unfold pieces stem
  rw [toList_join h]
  split
  · exact hname
  · split
    · -- the piece after the last slash is empty, and the name takes its place
      next hlast =>
      obtain ⟨front, hfront⟩ := List.getLast?_eq_some_iff.mp hlast
      have hend : splitAt '/' [] = [[]] := rfl
      rw [pieces, hfront, List.append_assoc, List.singleton_append, splitAt_append, splitAt_append,
        List.map_append, hname, hend, List.map_append, List.map_singleton, List.dropLast_concat]
    · rw [splitAt_append, List.map_append, hname]
      rfl

theorem endsInDot_join (h : IsName e) : (p.join e).endsInDot = false := by
  have hlast : [e].filter (· ≠ "") = [e] := by simp [h.ne_empty]
  rw [endsInDot, pieces_join h, List.filter_append, hlast, List.getLast?_concat]
  simpa using h.ne_dot

theorem stem_join (h : IsName e) : (p.join e).stem = p.stem ++ [e] := by
  obtain ⟨c, hc, hslash⟩ := getLast?_join (p := p) h
  unfold stem
  rw [if_neg (text_join_ne_empty h), hc, if_neg fun heq => hslash (Option.some.inj heq)]
  exact pieces_join h

theorem isAbsolute_join (h : IsName e) : (p.join e).isAbsolute = p.isAbsolute := by
  have hhead : e.toList.head? ≠ some '/' := fun hs => h.noSlash (List.mem_of_mem_head? hs)
  unfold isAbsolute
  rw [toList_join h]
  split
  · next hempty =>
    rw [hempty]
    simpa using hhead
  · next hne =>
    obtain ⟨c, cs, hcs⟩ := List.exists_cons_of_ne_nil fun hnil => hne (String.toList_injective hnil)
    split <;> rw [hcs] <;> rfl

theorem hasNul_join (h : IsName e) : (p.join e).hasNul = p.hasNul := by
  have hnul := h.noNul
  unfold hasNul
  rw [toList_join h]
  split
  · next hempty => simpa [hempty] using hnul
  · split <;> simp [hnul]

theorem filter_stem (p : Path) :
    p.stem.filter (!isTrivial ·) = p.pieces.filter (!isTrivial ·) := by
  unfold stem
  split
  · next hempty =>
    rw [pieces, hempty]
    rfl
  · split
    · next hlast =>
      obtain ⟨front, hfront⟩ := List.getLast?_eq_some_iff.mp hlast
      have hend : (splitAt '/' []).map String.ofList = [""] := rfl
      rw [pieces, hfront, splitAt_append, List.map_append, hend, List.dropLast_concat,
        List.filter_append]
      exact (List.append_nil _).symm
    · rfl

theorem head?_stem_append (h : IsName e) :
    (p.stem ++ [e]).head? = some "." ↔ p.pieces.head? = some "." := by
  unfold stem
  split
  · next hempty =>
    have hpieces : p.pieces = [""] := by
      rw [pieces, hempty]
      rfl
    rw [hpieces]
    simp [h.ne_dot]
  · split
    · next hlast =>
      obtain ⟨front, hfront⟩ := List.getLast?_eq_some_iff.mp hlast
      rw [pieces, hfront, splitAt_append, List.map_append]
      cases hsplit : splitAt '/' front with
      | nil => exact absurd hsplit (splitAt_ne_nil _ _)
      | cons piece rest => simp [splitAt, List.dropLast]
    · rw [pieces]
      cases hsplit : splitAt '/' p.text.toList with
      | nil => exact absurd hsplit (splitAt_ne_nil _ _)
      | cons piece rest => simp

theorem front_join (h : IsName e) : (p.join e).front = p.front := by
  unfold front
  rw [isAbsolute_join h, pieces_join h]
  simp only [head?_stem_append h]

theorem parts_join (h : IsName e) : (p.join e).parts = p.parts ++ [.name e] := by
  have hlast : ([e].filter (!isTrivial ·)).map partOf = [.name e] := by
    simp [h.notTrivial, partOf, h.notParent]
  unfold parts
  rw [front_join h, pieces_join h, List.filter_append, filter_stem, List.map_append, hlast,
    List.append_assoc]

theorem isInside_join (ha : IsName a) (hb : IsName b) :
    p.isInside ((p.join a).join b) = true := by
  unfold isInside below?
  rw [parts_join hb, parts_join ha, List.append_assoc,
    if_pos (List.isPrefixOf_iff_prefix.mpr (List.prefix_append _ _)), List.drop_left]
  rfl

theorem same_join (ha : IsName a) (hb : IsName b) :
    (p.join a).same (p.join b) = decide (a = b) := by
  unfold same
  rw [parts_join ha, parts_join hb]
  simp

end Mockup.Files.Path
