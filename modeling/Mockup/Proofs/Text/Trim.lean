import Mathlib.Data.List.DropRight
import Mockup.Text.Blank

/-! Trimming. A filled text is one that trimming leaves as it is and that is not empty; every text
read as non-blank is filled, and reading a filled text again gives the same text. -/

namespace Mockup.Text

variable {p : Char → Bool} {cs : List Char}

theorem dropEnd_eq_rdropWhile (p : Char → Bool) (cs : List Char) :
    dropEnd p cs = cs.rdropWhile p := rfl

theorem strip_eq_nil_iff : strip p cs = [] ↔ ∀ c ∈ cs, p c := by
  rw [strip, dropEnd_eq_rdropWhile, List.rdropWhile_eq_nil_iff]
  constructor
  · intro h
    have hnil : cs.dropWhile p = [] := by
      by_contra hne
      have hhead := List.head_dropWhile_not p hne
      rw [h _ (List.head_mem hne)] at hhead
      exact Bool.noConfusion hhead
    exact List.dropWhile_eq_nil_iff.mp hnil
  · intro h c hc
    exact h c ((List.dropWhile_suffix p).subset hc)

theorem strip_eq_self_iff :
    strip p cs = cs ↔ (∀ c ∈ cs.head?, p c = false) ∧ ∀ c ∈ cs.getLast?, p c = false := by
  constructor
  · intro h
    have hsuffix := List.dropWhile_suffix p (l := cs)
    have hprefix := List.rdropWhile_prefix p (cs.dropWhile p)
    -- what is lost at the front cannot come back at the end
    have hdrop : cs.dropWhile p = cs := by
      refine hsuffix.eq_of_length (le_antisymm hsuffix.length_le ?_)
      calc cs.length = (strip p cs).length := by rw [h]
        _ ≤ (cs.dropWhile p).length := hprefix.length_le
    have hend : cs.rdropWhile p = cs := by
      rwa [strip, dropEnd_eq_rdropWhile, hdrop] at h
    constructor
    · intro c hc
      cases cs with
      | nil => simp at hc
      | cons d ds =>
        obtain rfl : d = c := by simpa using hc
        by_contra hp
        have hlen := (List.dropWhile_suffix p (l := ds)).length_le
        rw [List.dropWhile_cons_of_pos (by simpa using hp)] at hdrop
        rw [hdrop, List.length_cons] at hlen
        omega
    · intro c hc
      obtain ⟨hne, rfl⟩ := List.mem_getLast?_eq_getLast hc
      simpa using List.rdropWhile_eq_self_iff.mp hend hne
  · rintro ⟨hhead, hlast⟩
    have hdrop : cs.dropWhile p = cs := by
      cases cs with
      | nil => rfl
      | cons d ds => exact List.dropWhile_cons_of_neg (by simp [hhead d (by simp)])
    rw [strip, hdrop, dropEnd_eq_rdropWhile, List.rdropWhile_eq_self_iff]
    intro hne
    simpa using hlast _ (List.getLast_mem_getLast? hne)

theorem head?_dropWhile {c : Char} (h : (cs.dropWhile p).head? = some c) : p c = false := by
  have hnot := List.head?_dropWhile_not p cs
  rwa [h] at hnot

theorem strip_strip (p : Char → Bool) (cs : List Char) : strip p (strip p cs) = strip p cs := by
  rw [strip_eq_self_iff]
  constructor
  · intro c hc
    -- dropping at the end leaves the first character unless it leaves none
    obtain ⟨rest, hrest⟩ := List.rdropWhile_prefix p (cs.dropWhile p)
    refine head?_dropWhile (?_ : (cs.dropWhile p).head? = some c)
    rw [← hrest, List.head?_append, ← dropEnd_eq_rdropWhile, ← strip, hc]
    rfl
  · intro c hc
    obtain ⟨hne, rfl⟩ := List.mem_getLast?_eq_getLast hc
    rw [← Bool.not_eq_true]
    exact List.rdropWhile_last_not p (cs.dropWhile p) hne

theorem strip_append {ds : List Char} (h : ∀ c ∈ ds, p c = true) :
    strip p (cs ++ ds) = strip p cs := by
  have hend (es : List Char) : dropEnd p (es ++ ds) = dropEnd p es := by
    have hreverse : ∀ c ∈ ds.reverse, p c = true := fun c hc => h c (List.mem_reverse.mp hc)
    rw [dropEnd, dropEnd, List.reverse_append, List.dropWhile_append_of_pos hreverse]
  rw [strip, strip, List.dropWhile_append]
  split
  · next hnil =>
    rw [List.isEmpty_iff.mp hnil, List.dropWhile_eq_nil_iff.mpr h]
  · exact hend _

theorem strip_prepend {ds : List Char} (h : ∀ c ∈ ds, p c = true) :
    strip p (ds ++ cs) = strip p cs := by
  rw [strip, strip, List.dropWhile_append_of_pos h]

theorem exists_strip_eq (p : Char → Bool) (cs : List Char) :
    ∃ front back, cs = front ++ strip p cs ++ back ∧ (∀ c ∈ front, p c = true) ∧
      ∀ c ∈ back, p c = true := by
  refine ⟨cs.takeWhile p, (cs.dropWhile p).rtakeWhile p, ?_, fun _ => List.mem_takeWhile_imp,
    fun _ => List.mem_rtakeWhile_imp⟩
  rw [strip, dropEnd_eq_rdropWhile, List.append_assoc, List.rdropWhile_append_rtakeWhile,
    List.takeWhile_append_dropWhile]

/-- A text that is not blank and has no white space around it. -/
def Filled (s : String) : Prop := filled? s = some s

instance (s : String) : Decidable (Filled s) := inferInstanceAs (Decidable (filled? s = some s))

variable {s t : String}

theorem filled?_eq_some_iff : filled? s = some t ↔ trim s.toList = t.toList ∧ t ≠ "" := by
  unfold filled?
  split
  · next h =>
    rw [h]
    refine ⟨nofun, fun ⟨hnil, hne⟩ => absurd ?_ hne⟩
    exact String.toList_injective (by rw [← hnil]; rfl)
  · next c cs h =>
    rw [h]
    constructor
    · intro ht
      obtain rfl := Option.some.inj ht
      exact ⟨String.toList_ofList.symm, fun h => by simpa using congrArg String.toList h⟩
    · rintro ⟨ht, -⟩
      rw [ht, String.ofList_toList]

theorem filled?_eq_none_iff : filled? s = none ↔ isBlankText s = true := by
  have hblank : isBlankText s = true ↔ trim s.toList = [] := by
    rw [trim, strip_eq_nil_iff, isBlankText, List.all_eq_true]
  rw [hblank]
  unfold filled?
  split
  · next h => simp only [h]
  · next h => simp only [h, reduceCtorEq]

theorem trimmed_of_blank (h : isBlankText s = true) : trimmed s = "" := by
  have hnil : trim s.toList = [] := strip_eq_nil_iff.mpr (List.all_eq_true.mp h)
  rw [trimmed, hnil, String.ofList_nil]

theorem filled_iff : Filled s ↔ trim s.toList = s.toList ∧ s ≠ "" := filled?_eq_some_iff

theorem Filled.of_filled? (h : filled? s = some t) : Filled t := by
  obtain ⟨ht, hne⟩ := filled?_eq_some_iff.mp h
  refine filled_iff.mpr ⟨?_, hne⟩
  rw [← ht]
  exact strip_strip isBlank s.toList

theorem Filled.trimmed_eq (h : Filled s) : trimmed s = s := by
  rw [trimmed, (filled_iff.mp h).1, String.ofList_toList]

theorem Filled.ne_empty (h : Filled s) : s ≠ "" := (filled_iff.mp h).2

theorem Filled.not_blank (h : Filled s) : isBlankText s = false := by
  rw [← Bool.not_eq_true, ← filled?_eq_none_iff, h]
  simp

def StartsFilled (s : String) : Prop := ∃ c, s.toList.head? = some c ∧ isBlank c = false

def EndsFilled (s : String) : Prop := ∃ c, s.toList.getLast? = some c ∧ isBlank c = false

theorem filled_iff_ends : Filled s ↔ StartsFilled s ∧ EndsFilled s := by
  constructor
  · intro h
    obtain ⟨htrim, hne⟩ := filled_iff.mp h
    have hnil : s.toList ≠ [] := fun hs => hne (String.toList_injective (by simpa using hs))
    obtain ⟨hhead, hlast⟩ := strip_eq_self_iff.mp htrim
    exact ⟨⟨_, List.head?_eq_some_head hnil, hhead _ (List.head?_eq_some_head hnil)⟩,
      ⟨_, List.getLast?_eq_some_getLast hnil, hlast _ (List.getLast?_eq_some_getLast hnil)⟩⟩
  · rintro ⟨⟨c, hc, hcb⟩, d, hd, hdb⟩
    refine filled_iff.mpr ⟨?_, ?_⟩
    · rw [trim, strip_eq_self_iff, hc, hd]
      simp [hcb, hdb]
    · rintro rfl
      cases hc

theorem Filled.starts (h : Filled s) : StartsFilled s := (filled_iff_ends.mp h).1

theorem Filled.ends (h : Filled s) : EndsFilled s := (filled_iff_ends.mp h).2

theorem StartsFilled.append (h : StartsFilled s) (t : String) : StartsFilled (s ++ t) := by
  obtain ⟨c, hc, hcb⟩ := h
  refine ⟨c, ?_, hcb⟩
  rw [String.toList_append, List.head?_append, hc]
  rfl

theorem EndsFilled.append (s : String) (h : EndsFilled t) : EndsFilled (s ++ t) := by
  obtain ⟨c, hc, hcb⟩ := h
  refine ⟨c, ?_, hcb⟩
  rw [String.toList_append, List.getLast?_append, hc]
  rfl

theorem filled_of_forall (hne : cs ≠ []) (h : ∀ c ∈ cs, isBlank c = false) :
    Filled (String.ofList cs) := by
  rw [filled_iff_ends, StartsFilled, EndsFilled, String.toList_ofList]
  exact ⟨⟨_, List.head?_eq_some_head hne, h _ (List.head_mem hne)⟩,
    ⟨_, List.getLast?_eq_some_getLast hne, h _ (List.getLast_mem hne)⟩⟩

theorem head?_dropEnd {c : Char} (hc : cs.head? = some c) (hp : p c = false) :
    (dropEnd p cs).head? = some c := by
  obtain ⟨rest, hrest⟩ := List.rdropWhile_prefix p cs
  rw [← dropEnd_eq_rdropWhile] at hrest
  cases h : dropEnd p cs with
  | nil =>
    rw [dropEnd_eq_rdropWhile, List.rdropWhile_eq_nil_iff] at h
    rw [h c (List.mem_of_mem_head? hc)] at hp
    cases hp
  | cons d ds =>
    rw [h] at hrest
    rw [← hrest] at hc
    exact hc

theorem trimmed_trimmed (s : String) : trimmed (trimmed s) = trimmed s := by
  rw [trimmed, trimmed, String.toList_ofList, trim, trim, strip_strip]

theorem exists_filled? {s : String} (h : isBlankText s = false) : ∃ t, filled? s = some t := by
  rw [← Option.ne_none_iff_exists', ne_eq, filled?_eq_none_iff, h]
  exact Bool.false_ne_true

theorem filled?_eq_ite (s : String) :
    filled? s = if isBlankText s then none else some (trimmed s) := by
  split
  · next h => exact filled?_eq_none_iff.mpr h
  · next h =>
    obtain ⟨t, ht⟩ := exists_filled? (Bool.eq_false_iff.mpr h)
    rw [ht, trimmed, (filled?_eq_some_iff.mp ht).1, String.ofList_toList]

theorem filled_trimmed (h : isBlankText s = false) : Filled (trimmed s) := by
  refine .of_filled? (s := s) ?_
  rw [filled?_eq_ite, h]
  rfl

theorem subset_intercalate {separator s : String} {lines : List String} (h : s ∈ lines) :
    s.toList ⊆ (separator.intercalate lines).toList := by
  induction lines with
  | nil => cases h
  | cons t lines ih =>
    cases lines with
    | nil =>
      obtain rfl := List.mem_singleton.mp h
      rw [String.intercalate_singleton]
      exact List.Subset.refl _
    | cons u lines =>
      rw [String.intercalate_cons_cons, String.toList_append, String.toList_append]
      rcases List.mem_cons.mp h with rfl | h
      · rw [List.append_assoc]
        exact List.subset_append_left _ _
      · exact List.subset_append_of_subset_right _ (ih h)

theorem not_blank_intercalate {separator s : String} {lines : List String} (h : s ∈ lines)
    (hs : isBlankText s = false) : isBlankText (separator.intercalate lines) = false := by
  obtain ⟨c, hc, hblank⟩ := List.all_eq_false.mp hs
  exact List.all_eq_false.mpr ⟨c, subset_intercalate h hc, hblank⟩

end Mockup.Text
