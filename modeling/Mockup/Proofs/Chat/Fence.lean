import Mathlib.Data.List.Infix
import Mockup.Chat.Reply
import Mockup.Proofs.Text.Trim

/-! Fenced blocks in a reply: where the first fence stands, what the block after it holds, and what
a reply is cleaned to. -/

namespace Mockup.Reply

def fence : List Char := ['\x60', '\x60', '\x60']

/-- The first fence of the text stands between these: two more backticks do not make a fence of the
text before it, so that none starts earlier. -/
structure Splits (cs before after : List Char) : Prop where
  text : cs = before ++ fence ++ after
  first : ¬ fence <:+: before ++ ['\x60', '\x60']

section Fence

variable {c : Char} {cs before after : List Char}

theorem fence_prefix_iff :
    fence <+: c :: (before ++ fence ++ after) ↔ fence <+: c :: (before ++ ['\x60', '\x60']) := by
  have htext : c :: (before ++ fence ++ after) =
      c :: (before ++ ['\x60', '\x60']) ++ '\x60' :: after := by simp [fence]
  rw [htext]
  exact List.isPrefix_append_of_length (by simp [fence])

theorem splits_fence_iff (rest : List Char) :
    Splits (fence ++ rest) before after ↔ before = [] ∧ after = rest := by
  constructor
  · intro h
    cases before with
    | nil => exact ⟨rfl, (List.append_cancel_left h.text).symm⟩
    | cons d before =>
      have hprefix : fence <+: d :: (before ++ fence ++ after) := by
        rw [← List.cons_append, ← List.cons_append, ← h.text]
        exact List.prefix_append fence rest
      exact absurd (fence_prefix_iff.mp hprefix).isInfix h.first
  · rintro ⟨rfl, rfl⟩
    exact ⟨rfl, by decide⟩

theorem splits_cons_iff {d : Char} (h : ¬ fence <+: c :: cs) :
    Splits (c :: cs) (d :: before) after ↔ c = d ∧ Splits cs before after := by
  constructor
  · intro hsplits
    obtain ⟨rfl, rfl⟩ := List.cons.inj hsplits.text
    exact ⟨rfl, rfl, fun hinfix => hsplits.first (List.infix_cons_iff.mpr (.inr hinfix))⟩
  · rintro ⟨rfl, rfl, hfirst⟩
    refine ⟨rfl, fun hinfix => ?_⟩
    rcases List.infix_cons_iff.mp hinfix with hprefix | hinfix
    · exact h (fence_prefix_iff.mpr hprefix)
    · exact hfirst hinfix

theorem atFence?_cons (h : ¬ fence <+: c :: cs) :
    atFence? (c :: cs) = (atFence? cs).map fun p => (c :: p.1, p.2) := by
  rw [atFence?]
  rintro rest rfl rfl
  exact h (List.prefix_append fence rest)

theorem atFence?_eq_some_iff : atFence? cs = some (before, after) ↔ Splits cs before after := by
  induction cs generalizing before with
  | nil => exact ⟨nofun, fun h => by simpa [fence] using congrArg List.length h.text⟩
  | cons c cs ih =>
    by_cases hfence : fence <+: c :: cs
    · obtain ⟨rest, hrest⟩ := hfence
      rw [← hrest, splits_fence_iff, show atFence? (fence ++ rest) = some ([], rest) from rfl]
      simp only [Option.some.injEq, Prod.mk.injEq, eq_comm]
    · rw [atFence?_cons hfence, Option.map_eq_some_iff]
      cases before with
      | nil =>
        constructor
        · rintro ⟨p, -, hp⟩
          cases hp
        · intro h
          exact absurd (h.text ▸ List.prefix_append fence after) hfence
      | cons d before =>
        rw [splits_cons_iff hfence, ← ih]
        constructor
        · rintro ⟨p, h, hp⟩
          cases hp
          exact ⟨rfl, h⟩
        · rintro ⟨rfl, h⟩
          exact ⟨_, h, rfl⟩

theorem atFence?_eq_none_iff : atFence? cs = none ↔ ¬ fence <:+: cs := by
  induction cs with
  | nil => exact iff_of_true rfl (by decide)
  | cons c cs ih =>
    rw [List.infix_cons_iff, not_or, ← ih]
    by_cases hfence : fence <+: c :: cs
    · obtain ⟨rest, hrest⟩ := hfence
      rw [← hrest]
      exact iff_of_false nofun fun h => h.1 (List.prefix_append fence rest)
    · rw [atFence?_cons hfence, Option.map_eq_none_iff]
      exact (and_iff_right hfence).symm

theorem splits_of_not_infix (hbefore : ¬ fence <:+: before) (hlast : before.getLast? ≠ some '\x60')
    (after : List Char) : Splits (before ++ fence ++ after) before after := by
  refine ⟨rfl, fun hinfix => ?_⟩
  rw [List.append_cons] at hinfix
  rcases List.infix_concat_iff.mp hinfix with ⟨front, hfront⟩ | hinfix
  · have hend : before = front ++ ['\x60'] := by
      have htwo : before ++ ['\x60', '\x60'] = front ++ ['\x60'] ++ ['\x60', '\x60'] := by
        rw [List.append_cons, ← hfront]
        simp [fence]
      exact List.append_cancel_right htwo
    exact hlast (by rw [hend]; exact List.getLast?_concat)
  rcases List.infix_concat_iff.mp hinfix with ⟨front, hfront⟩ | hinfix
  · have hend : before = front ++ ['\x60', '\x60'] := by
      have hone : before ++ ['\x60'] = front ++ ['\x60', '\x60'] ++ ['\x60'] := by
        rw [← hfront]
        simp [fence]
      exact List.append_cancel_right hone
    exact hlast (by rw [hend, List.append_cons]; exact List.getLast?_concat)
  · exact hbefore hinfix

end Fence

/-- What is left of the text after an opening fence: the rest of the line is a tag that is passed
over, unless the text ends with that line. -/
inductive Opens : List Char → List Char → Prop where
  | tag {tag inner : List Char} : '\n' ∉ tag → Opens (tag ++ '\n' :: inner) inner
  | lastLine {after : List Char} : '\n' ∉ after → Opens after after

theorem opens_iff {after inner : List Char} : Opens after inner ↔ afterLine after = inner := by
  constructor
  · rintro (htag | hline)
    · next tag =>
      have hskip : ∀ c ∈ tag, decide (c ≠ '\n') = true :=
        fun c hc => decide_eq_true fun h => htag (h ▸ hc)
      rw [afterLine, List.dropWhile_append_of_pos hskip]
      rfl
    · have hskip : ∀ c ∈ after, decide (c ≠ '\n') = true :=
        fun c hc => decide_eq_true fun h => hline (h ▸ hc)
      rw [afterLine, List.dropWhile_eq_nil_iff.mpr hskip]
  · rintro rfl
    have htake : '\n' ∉ after.takeWhile (· ≠ '\n') :=
      fun h => absurd (List.mem_takeWhile_imp h) (by decide)
    have hafter := List.takeWhile_append_dropWhile (p := (· ≠ '\n')) (l := after)
    rw [afterLine]
    cases hdrop : after.dropWhile (· ≠ '\n') with
    | nil =>
      rw [hdrop, List.append_nil] at hafter
      exact .lastLine (hafter ▸ htake)
    | cons c rest =>
      have hc : c = '\n' := by
        have hhead := List.head?_dropWhile_not (· ≠ '\n') after
        rw [hdrop] at hhead
        simpa using hhead
      rw [hdrop, hc] at hafter
      exact hafter ▸ .tag htake

/-- The first block of the text: what stands between the first fence and the next one. -/
structure Block (cs body : List Char) : Prop where
  exists_splits : ∃ before after inner rest,
    Splits cs before after ∧ Opens after inner ∧ Splits inner body rest

def HasBlock (reply : String) : Prop := ∃ body, Block reply.toList body

variable {reply : String} {cs body : List Char}

theorem block_iff :
    Block cs body ↔ ∃ before after rest,
      atFence? cs = some (before, after) ∧ atFence? (afterLine after) = some (body, rest) := by
  constructor
  · rintro ⟨before, after, inner, rest, hopening, hopens, hclosing⟩
    exact ⟨before, after, rest, atFence?_eq_some_iff.mpr hopening,
      opens_iff.mp hopens ▸ atFence?_eq_some_iff.mpr hclosing⟩
  · rintro ⟨before, after, rest, hopening, hclosing⟩
    exact ⟨before, after, _, rest, atFence?_eq_some_iff.mp hopening, opens_iff.mpr rfl,
      atFence?_eq_some_iff.mp hclosing⟩

instance (reply : String) : Decidable (HasBlock reply) :=
  decidable_of_iff
    (((atFence? reply.toList).bind fun p => atFence? (afterLine p.2)).isSome = true) <| by
      simp only [HasBlock, block_iff, Option.isSome_iff_exists, Option.bind_eq_some_iff,
        Prod.exists]
      constructor
      · rintro ⟨body, rest, before, after, hopening, hclosing⟩
        exact ⟨body, before, after, rest, hopening, hclosing⟩
      · rintro ⟨body, before, after, rest, hopening, hclosing⟩
        exact ⟨body, rest, before, after, hopening, hclosing⟩

theorem not_hasBlock_of_not_infix (h : ¬ fence <:+: reply.toList) : ¬ HasBlock reply := by
  rintro ⟨body, hblock⟩
  obtain ⟨before, after, rest, hopening, -⟩ := block_iff.mp hblock
  cases (atFence?_eq_none_iff.mpr h).symm.trans hopening

theorem clean_of_block (h : Block reply.toList body) :
    clean reply = String.ofList (Text.trim body) := by
  obtain ⟨before, after, rest, hopening, hclosing⟩ := block_iff.mp h
  simp only [clean, hopening, hclosing]

theorem clean_of_not_hasBlock (h : ¬ HasBlock reply) : clean reply = Text.trimmed reply := by
  unfold clean
  split
  · rfl
  · next before after hopening =>
    split
    · rfl
    · next body rest hclosing =>
      exact absurd ⟨body, block_iff.mpr ⟨before, after, rest, hopening, hclosing⟩⟩ h

def inBlock (before tag text after : String) : String :=
  before ++ String.ofList fence ++ tag ++ "\n" ++ text ++ "\n" ++ String.ofList fence ++ after

theorem block_inBlock {before tag text : String} (hbefore : ¬ fence <:+: before.toList)
    (hlast : before.toList.getLast? ≠ some '\x60') (htag : '\n' ∉ tag.toList)
    (htext : ¬ fence <:+: text.toList) (after : String) :
    Block (inBlock before tag text after).toList (text.toList ++ ['\n']) := by
  have hline : ¬ fence <:+: text.toList ++ ['\n'] := by
    intro hinfix
    rcases List.infix_concat_iff.mp hinfix with hsuffix | hinfix
    · rcases List.suffix_concat_iff.mp hsuffix with hnil | ⟨front, hfront, -⟩
      · cases hnil
      · simpa [fence] using congrArg List.getLast? hfront
    · exact htext hinfix
  have hclosing := splits_of_not_infix hline (by simp) after.toList
  refine ⟨before.toList, _, _, after.toList, ?_, .tag htag, hclosing⟩
  have hsplits := splits_of_not_infix hbefore hlast
    (tag.toList ++ '\n' :: (text.toList ++ ['\n'] ++ fence ++ after.toList))
  have htoList : (inBlock before tag text after).toList = before.toList ++ fence ++
      (tag.toList ++ '\n' :: (text.toList ++ ['\n'] ++ fence ++ after.toList)) := by
    simp [inBlock]
  rw [htoList]
  exact hsplits

end Mockup.Reply
