import Mathlib.Data.List.Basic
import Mathlib.Data.List.Nodup
import Mockup.Config.Basic
import Mockup.Proofs.Text.Trim

/-! The models that are asked for. Of the configured names each is taken at the first place where it
stands, without white space around it; names that are blank are not taken. -/

namespace Mockup

section Firsts

variable {α : Type} [BEq α] [LawfulBEq α] {xs : List α} {a b x : α}

def firsts (xs : List α) : List α :=
  (xs.zipIdx.filter fun p => !(xs.take p.2).contains p.1).map Prod.fst

theorem firsts_concat (xs : List α) (x : α) :
    firsts (xs ++ [x]) = if x ∈ xs then firsts xs else firsts xs ++ [x] := by
  have hbefore : ∀ p ∈ xs.zipIdx, (!((xs ++ [x]).take p.2).contains p.1) =
      !(xs.take p.2).contains p.1 := by
    intro p hp
    have hlt : p.2 < xs.length := by simpa using List.snd_lt_of_mem_zipIdx hp
    rw [List.take_append_of_le_length hlt.le]
  rw [firsts, List.zipIdx_append, List.filter_append, List.filter_congr hbefore, List.map_append,
    ← firsts]
  by_cases hx : x ∈ xs <;> simp [hx]

theorem eraseDups_concat (xs : List α) (x : α) :
    (xs ++ [x]).eraseDups = if x ∈ xs then xs.eraseDups else xs.eraseDups ++ [x] := by
  rw [List.eraseDups_append]
  by_cases hx : x ∈ xs <;> simp [List.removeAll, List.eraseDups_cons, hx]

theorem eraseDups_eq_firsts (xs : List α) : xs.eraseDups = firsts xs := by
  induction xs using List.reverseRecOn with
  | nil => rfl
  | append_singleton xs x ih => rw [eraseDups_concat, firsts_concat, ih]

theorem nodup_eraseDups (xs : List α) : xs.eraseDups.Nodup := by
  induction xs using List.reverseRecOn with
  | nil => exact List.nodup_nil
  | append_singleton xs x ih =>
    rw [eraseDups_concat]
    split
    · exact ih
    · next hx =>
      have hnew : x ∉ xs.eraseDups := fun h => hx (List.mem_eraseDups.mp h)
      exact List.nodup_append.mpr ⟨ih, List.nodup_singleton x, by grind⟩

theorem idxOf_concat_lt_iff (hx : x ∉ xs) (ha : a ∈ xs ++ [x]) (hb : b ∈ xs ++ [x]) :
    (xs ++ [x]).idxOf a < (xs ++ [x]).idxOf b ↔
      a ∈ xs ∧ (b ∉ xs ∨ xs.idxOf a < xs.idxOf b) := by
  rw [List.mem_append, List.mem_singleton] at ha hb
  rw [List.idxOf_append, List.idxOf_append]
  rcases ha with ha | rfl
  · have hlt := List.idxOf_lt_length_of_mem ha
    rcases hb with hb | rfl
    · simp [ha, hb]
    · rw [if_pos ha, if_neg hx]
      exact ⟨fun _ => ⟨ha, .inl hx⟩, fun _ => Nat.lt_add_left _ hlt⟩
  · rw [if_neg hx]
    rcases hb with hb | rfl
    · have hlt := List.idxOf_lt_length_of_mem hb
      simp only [hb, hx, if_true, false_and, iff_false]
      omega
    · simp [hx]

/-- Names keep the order in which they stand for the first time. -/
theorem idxOf_eraseDups_lt_iff (ha : a ∈ xs) (hb : b ∈ xs) :
    xs.eraseDups.idxOf a < xs.eraseDups.idxOf b ↔ xs.idxOf a < xs.idxOf b := by
  induction xs using List.reverseRecOn with
  | nil => cases ha
  | append_singleton xs x ih =>
    rw [eraseDups_concat]
    by_cases hx : x ∈ xs
    · have hmem {c : α} (hc : c ∈ xs ++ [x]) : c ∈ xs := by
        rw [List.mem_append, List.mem_singleton] at hc
        exact hc.elim id fun h => h ▸ hx
      rw [if_pos hx, List.idxOf_append_of_mem (hmem ha), List.idxOf_append_of_mem (hmem hb)]
      exact ih (hmem ha) (hmem hb)
    · have hnew : x ∉ xs.eraseDups := fun h => hx (List.mem_eraseDups.mp h)
      have hmem {c : α} (hc : c ∈ xs ++ [x]) : c ∈ xs.eraseDups ++ [x] := by simpa using hc
      rw [if_neg hx, idxOf_concat_lt_iff hnew (hmem ha) (hmem hb), idxOf_concat_lt_iff hx ha hb]
      simp only [List.mem_eraseDups]
      refine and_congr_right fun ha => ?_
      by_cases hb : b ∈ xs
      · simp only [hb, not_true_eq_false, false_or, ih ha hb]
      · simp only [hb, not_false_eq_true, true_or]

end Firsts

namespace Config

open Text

variable {c : Config} {m t : String}

def configured (c : Config) : List String := c.modelOverride.toList ++ c.defaultModels

def named (c : Config) : List String :=
  (c.configured.filter fun m => !isBlankText m).map trimmed

theorem candidates_eq (c : Config) : c.candidates = c.named.eraseDups := by
  have hnamed : c.configured.filterMap filled? = c.named := by
    rw [named]
    induction c.configured with
    | nil => rfl
    | cons m ms ih =>
      rw [List.filterMap_cons, filled?_eq_ite]
      cases hm : isBlankText m <;> simp [hm, ih]
  rw [candidates, ← configured, hnamed]

theorem mem_named_iff : t ∈ c.named ↔ ∃ m ∈ c.configured, isBlankText m = false ∧ trimmed m = t := by
  simp [named, and_assoc]

theorem filled_of_mem_named (h : t ∈ c.named) : Filled t := by
  obtain ⟨m, -, hm, rfl⟩ := mem_named_iff.mp h
  refine .of_filled? (s := m) ?_
  rw [filled?_eq_ite, hm, if_neg Bool.false_ne_true]

theorem head?_named (h : c.modelOverride = some m) (hm : isBlankText m = false) :
    c.named.head? = some (trimmed m) := by
  simp [named, configured, h, hm]

/-- The candidates are the configured names without white space around them, each where it stands
for the first time. They hold every name that is not blank and no other, once, in the order of the
configuration, and an override that is not blank comes first. -/
theorem candidates_firsts (c : Config) :
    c.candidates = firsts c.named ∧ c.candidates.Nodup ∧
    (∀ m ∈ c.candidates, isBlankText m = false ∧ trimmed m = m) ∧
    (∀ t, t ∈ c.candidates ↔ ∃ m ∈ c.configured, isBlankText m = false ∧ trimmed m = t) ∧
    (∀ a ∈ c.candidates, ∀ b ∈ c.candidates,
      c.candidates.idxOf a < c.candidates.idxOf b ↔ c.named.idxOf a < c.named.idxOf b) ∧
    ∀ m, c.modelOverride = some m → isBlankText m = false →
      c.candidates.head? = some (trimmed m) := by
  simp only [candidates_eq, List.mem_eraseDups]
  refine ⟨eraseDups_eq_firsts _, nodup_eraseDups _, fun m hm => ?_, fun t => mem_named_iff,
    fun a ha b hb => idxOf_eraseDups_lt_iff ha hb, fun m hoverride hm => ?_⟩
  · have hfilled := filled_of_mem_named hm
    exact ⟨hfilled.not_blank, hfilled.trimmed_eq⟩
  · have hhead := head?_named hoverride hm
    obtain ⟨rest, hrest⟩ := List.head?_eq_some_iff.mp hhead
    rw [hrest, List.eraseDups_cons, List.head?_cons]

def paddedConfig : Config :=
  { modelOverride := some " large", defaultModels := ["small", "large", " ", "small\n"] }

theorem candidates_firsts_padded :
    paddedConfig.candidates = ["large", "small"] ∧ trimmed "small" = "small" ∧
      paddedConfig.candidates.idxOf "large" < paddedConfig.candidates.idxOf "small" ∧
      paddedConfig.candidates.head? = some "large" := by
  obtain ⟨hfirsts, -, hclean, hmem, horder, hhead⟩ := candidates_firsts paddedConfig
  have hlarge : "large" ∈ paddedConfig.candidates := (hmem _).mpr ⟨" large", by decide⟩
  have hsmall : "small" ∈ paddedConfig.candidates := (hmem _).mpr ⟨"small\n", by decide⟩
  refine ⟨?_, (hclean "small" hsmall).2, (horder _ hlarge _ hsmall).mpr (by decide), ?_⟩
  · rw [hfirsts]
    decide
  · rw [hhead " large" rfl (by decide)]
    decide

end Config

end Mockup
