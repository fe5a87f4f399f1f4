import Mockup.Proofs.Chat.Fence
import Mockup.Proofs.Json.Spelled

/-! What payload a reply gives. A value that stands alone in the reply is read, unless the backticks
in its strings make a block; a value in the first block is read whatever stands around the block. -/

namespace Mockup.Reply

open Json

variable {reply text : String} {v w : Value} {body : List Char}

theorem parse_eq_ok_iff : parse reply = .ok v ↔ Value.parse (clean reply) = .ok v := by
  unfold parse payload
  cases Value.parse (clean reply) with
  | ok w => simp
  | error e => simp

theorem scan_fence {r s : Region} {cs : List Char} (h : r.scan (fence ++ cs) = some s) :
    r = .within ∧ Region.within.scan cs = some s := by
  obtain ⟨q, hfence, hcs⟩ := Region.exists_of_scan_append h
  obtain ⟨q₁, hfirst, hrest⟩ := Region.exists_of_scan_cons hfence
  obtain ⟨rfl, rfl⟩ := Region.step_backtick hfirst
  cases (show some Region.within = some q from hrest)
  exact ⟨rfl, hcs⟩

/-- Fences in a value stand within strings. A line break between two of them stands between strings,
so that the body of the block would end within a string; and where there is none, the body can be
scanned from within a string as well as from between strings. -/
theorem not_mentions_of_block (h : Value.parse text = .ok v) (hblock : Block text.toList body)
    (hw : Value.parse (String.ofList (Text.trim body)) = .ok w) : ¬ w.Mentions '\x60' := by
  obtain ⟨before, after, inner, rest, hopening, hopens, hclosing⟩ := hblock.exists_splits
  have hbetween := scan_of_parse hw
  rw [String.toList_ofList] at hbetween
  have hbody {r : Region} (hinner : r.scan inner = some .between) :
      r.scan (Text.trim body) = some .within := by
    rw [hclosing.text, List.append_assoc] at hinner
    obtain ⟨_, hscan, hend⟩ := Region.exists_of_scan_append hinner
    obtain ⟨rfl, -⟩ := scan_fence hend
    exact Region.scan_trim hscan
  have hscan := scan_of_parse h
  rw [hopening.text, List.append_assoc] at hscan
  obtain ⟨_, -, hscan⟩ := Region.exists_of_scan_append hscan
  obtain ⟨rfl, hafter⟩ := scan_fence hscan
  cases hopens with
  | tag htag =>
    obtain ⟨_, -, hline⟩ := Region.exists_of_scan_append hafter
    obtain ⟨_, hbreak, hinner⟩ := Region.exists_of_scan_cons hline
    obtain ⟨rfl, rfl⟩ := Region.step_newline hbreak
    cases (hbody hinner).symm.trans hbetween
  | lastLine hline =>
    have hclear := Region.clear_of_scans (by rw [hbody hafter]; nofun) (by rw [hbetween]; nofun)
    intro hmentions
    rcases mem_of_parse hw hmentions with hmem | hmem
    · rw [String.toList_ofList] at hmem
      exact (hclear _ hmem).2 rfl
    · rw [String.toList_ofList] at hmem
      exact (hclear _ hmem).1 rfl

/-- A reply that is a value is read as that value exactly if a block in it, if there is any, holds
the same value again. With a backtick in its strings, the value comes back only without a block. -/
theorem parse_value_iff (h : Value.parse text = .ok v) :
    parse text = .ok v ↔ ∀ body, Block text.toList body →
      Value.parse (String.ofList (Text.trim body)) = .ok v ∧ ¬ v.Mentions '\x60' := by
  rw [parse_eq_ok_iff]
  constructor
  · intro hparse body hblock
    rw [clean_of_block hblock] at hparse
    exact ⟨hparse, not_mentions_of_block h hblock hparse⟩
  · intro hblocks
    by_cases hblock : HasBlock text
    · obtain ⟨body, hblock⟩ := hblock
      rw [clean_of_block hblock]
      exact (hblocks body hblock).1
    · rw [clean_of_not_hasBlock hblock]
      exact Value.parse_trimmed h

/-- A fence that is not closed makes no block. -/
theorem parse_message_with_fence :
    let text := "\x7b\"message\":\"\x60\x60\x60x\"\x7d"
    let v := Value.object [("message", .text "\x60\x60\x60x")]
    Value.parse text = .ok v ∧ parse text = .ok v := by
  have hnone : ¬ HasBlock "\x7b\"message\":\"\x60\x60\x60x\"\x7d" := by decide
  exact ⟨rfl, (parse_value_iff rfl).mpr fun body hblock => absurd ⟨body, hblock⟩ hnone⟩

/-- With a block in one of its strings, nothing is read for a value. -/
theorem parse_message_with_block :
    let text := "\x7b\"message\":\"\x60\x60\x60x\x60\x60\x60\"\x7d"
    Value.parse text = .ok (.object [("message", .text "\x60\x60\x60x\x60\x60\x60")]) ∧
      parse text = .error "expected value at line 1 column 1" :=
  ⟨rfl, rfl⟩

/-- A value in a block is read, and cleaning the reply again changes nothing. -/
theorem parse_inBlock {before tag : String} (h : Value.parse text = .ok v)
    (htext : ¬ fence <:+: text.toList) (hbefore : ¬ fence <:+: before.toList)
    (hlast : before.toList.getLast? ≠ some '\x60') (htag : '\n' ∉ tag.toList) (after : String) :
    parse (inBlock before tag text after) = .ok v ∧
      clean (clean (inBlock before tag text after)) = clean (inBlock before tag text after) := by
  have hclean : clean (inBlock before tag text after) = Text.trimmed text := by
    rw [clean_of_block (block_inBlock hbefore hlast htag htext after), Text.trim,
      Text.strip_append (List.forall_mem_singleton.mpr rfl)]
    rfl
  have hnone : ¬ HasBlock (Text.trimmed text) := by
    refine not_hasBlock_of_not_infix fun hinfix => htext ?_
    obtain ⟨front, back, htext, -⟩ := Text.exists_strip_eq Text.isBlank text.toList
    rw [htext]
    rw [Text.trimmed, String.toList_ofList] at hinfix
    exact hinfix.trans (List.infix_append _ _ _)
  rw [parse_eq_ok_iff, hclean, clean_of_not_hasBlock hnone, Text.trimmed_trimmed]
  exact ⟨Value.parse_trimmed h, rfl⟩

theorem parse_block_after_greeting :
    let reply := inBlock "Sure! " "json" " \x7b\"title\":\"A\"\x7d" " or \x60\x60\x60?"
    parse reply = .ok (.object [("title", .text "A")]) ∧ clean (clean reply) = clean reply :=
  parse_inBlock rfl (by decide) (by decide) (by decide) (by decide) " or \x60\x60\x60?"

end Mockup.Reply
