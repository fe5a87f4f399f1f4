import Mockup.Payload.Normal
import Mockup.Proofs.Json.Printed
import Mockup.Proofs.Json.WellFormed

/-! Readings of loose values. Whatever is read as a text is filled, and a text that is filled reads
as itself, so that a second reading changes nothing. -/

namespace Mockup

namespace Payload

open Json Text

variable {v : Value} {s t : String} {xs : List String}

theorem filled_of_stringText? (h : stringText? v = some t) : Filled t := by
  cases v with
  | text s => exact .of_filled? h
  | _ => cases h

theorem filled_of_scalarText? (h : scalarText? v = some t) : Filled t := by
  cases v with
  | text s => exact .of_filled? h
  | number n =>
    obtain rfl := Option.some.inj h
    exact n.filled_print
  | bool b =>
    obtain rfl := Option.some.inj h
    cases b <;> exact rfl
  | _ => cases h

theorem filled_of_firstText? {m : Members} {keys : List String} (h : firstText? m keys = some t) :
    Filled t := by
  obtain ⟨key, -, hkey⟩ := List.exists_of_findSome?_eq_some h
  obtain ⟨v, -, hv⟩ := Option.bind_eq_some_iff.mp hkey
  exact filled_of_scalarText? hv

theorem filled_of_itemText? (h : itemText? v = some t) : Filled t := by
  cases v with
  | null => cases h
  | object m =>
    rcases Option.or_eq_some_iff.mp h with h | ⟨-, h⟩
    · exact filled_of_firstText? h
    · split at h
      · cases h
      · exact Option.some.inj h ▸ Value.filled_compact_object m
  | list vs =>
    rw [itemText?] at h
    split at h
    · cases h
    · exact Option.some.inj h ▸ Value.filled_compact_list vs
  | text s => exact filled_of_scalarText? (v := .text s) h
  | number n => exact filled_of_scalarText? (v := .number n) h
  | bool b => exact filled_of_scalarText? (v := .bool b) h

theorem filled_of_textList? (h : textList? v = some xs) : ∀ t ∈ xs, Filled t := by
  intro t ht
  cases v with
  | list vs =>
    obtain rfl := Option.some.inj h
    obtain ⟨w, -, hw⟩ := List.mem_filterMap.mp ht
    exact filled_of_itemText? hw
  | text s =>
    obtain ⟨u, hu, rfl⟩ := Option.map_eq_some_iff.mp h
    obtain rfl := List.mem_singleton.mp ht
    exact .of_filled? hu
  | _ => cases h

theorem filled_shorten {limit : Nat} (hlimit : 0 < limit) (h : Filled s) :
    Filled (shorten limit s) := by
  rw [shorten, (filled_iff.mp h).1]
  split
  · rwa [String.ofList_toList]
  · obtain ⟨c, hc, hcb⟩ := h.starts
    have htake : (s.toList.take limit).head? = some c := by
      rw [List.head?_take, if_neg hlimit.ne', hc]
    have hcut := head?_dropEnd htake hcb
    rw [filled_iff_ends, StartsFilled, EndsFilled, String.toList_ofList, List.head?_append, hcut,
      List.getLast?_concat]
    exact ⟨⟨c, rfl, hcb⟩, '…', rfl, rfl⟩

theorem exists_of_mem_extract {notes : String} (h : t ∈ Bullets.extract notes) :
    ∃ line ∈ lines notes.toList, ∃ raw, Bullets.itemOfLine? line = some raw ∧
      t.toList = Bullets.clean raw ∧ t ≠ "" := by
  obtain ⟨line, hmem, hline⟩ := List.mem_filterMap.mp h
  rw [Bullets.ofLine?] at hline
  split at hline
  · next c cs hclean =>
    obtain rfl := Option.some.inj hline
    obtain ⟨raw, hraw, hitem⟩ := Option.map_eq_some_iff.mp hclean
    refine ⟨line, hmem, raw, hraw, ?_, fun hnil => ?_⟩
    · rw [hitem, String.toList_ofList]
    · simpa using congrArg String.toList hnil
  · cases hline

theorem filled_of_mem_extract {notes : String} (h : t ∈ Bullets.extract notes) : Filled t := by
  obtain ⟨-, -, raw, -, hclean, hne⟩ := exists_of_mem_extract h
  refine filled_iff.mpr ⟨?_, hne⟩
  rw [hclean]
  exact strip_strip isBlank _

theorem filled_numberedName (place : Nat) : Filled (Placeholder.numberedName place) := by
  rw [Placeholder.numberedName, filled_iff_ends]
  refine ⟨StartsFilled.append ⟨'S', rfl, rfl⟩ _, EndsFilled.append _ ?_⟩
  exact (filled_of_forall (digits_ne_nil _) fun _ h =>
    isBlank_of_isNumeral (isNumeral_of_mem_digits h)).ends

end Payload

theorem Context.filled_noteItems (ctx : Context) : ∀ t ∈ ctx.noteItems, Text.Filled t := by
  intro t ht
  rw [noteItems] at ht
  cases hnotes : ctx.notes with
  | none => simp [hnotes] at ht
  | some notes =>
    rw [hnotes] at ht
    exact Payload.filled_of_mem_extract ht

end Mockup
