import Mathlib.Data.List.DropRight
import Mockup.Json.Reader.Value

/-! Where space may stand, it is skipped: what is read depends on the next character that is not
space. -/

namespace Mockup.Json.Reader

variable {α σ : Type} {c : Char} {cs ds : List Char} {levels : Nat}

theorem skipSpace_cons (h : isSpace c = false) (cs : List Char) :
    skipSpace (c :: cs) = c :: cs := List.dropWhile_cons_of_neg (by simp [h])

theorem isSpace_of_skipSpace (h : skipSpace cs = c :: ds) : isSpace c = false := by
  have hhead := List.head?_dropWhile_not isSpace cs
  rw [skipSpace] at h
  rw [h] at hhead
  simpa using hhead

theorem skipSpace_skipSpace (cs : List Char) : skipSpace (skipSpace cs) = skipSpace cs :=
  List.dropWhile_idempotent _ _

theorem value_skipSpace (levels : Nat) (cs : List Char) :
    value levels (skipSpace cs) = value levels cs := by
  cases levels with
  | zero => rw [value, skipSpace_skipSpace, value]
  | succ levels => rw [value, skipSpace_skipSpace, value]

theorem value_scalar (h : skipSpace cs = c :: ds) (hlist : c ≠ '[') (hobject : c ≠ '\x7b') :
    value levels cs = scalar c ds := by
  cases levels with
  | zero =>
    have hbracket : ¬ (c = '[' || c = '\x7b') = true := by simp [hlist, hobject]
    rw [value, h]
    exact if_neg hbracket
  | succ levels =>
    rw [value, h]
    exact (if_neg hlist).trans (if_neg hobject)

theorem value_bracket (h : skipSpace cs = '[' :: ds) :
    value (levels + 1) cs = (items (value levels)).map .list ds := by
  rw [value, h]
  rfl

theorem value_brace (h : skipSpace cs = '\x7b' :: ds) :
    value (levels + 1) cs = (members (freeMember (value levels)) []).map .object ds := by
  rw [value, h]
  rfl

theorem value_zero (h : skipSpace cs = c :: ds) (hopen : (c = '[' || c = '\x7b') = true) :
    value 0 cs = .error ⟨.tooDeep, c :: ds, 1⟩ := by
  rw [value, h]
  exact if_pos hopen

theorem skipSpace_append {space : List Char} (h : ∀ c ∈ space, isSpace c = true)
    (cs : List Char) : skipSpace (space ++ cs) = skipSpace cs := List.dropWhile_append_of_pos h

theorem isSpace_newline (depth : Nat) : ∀ c ∈ Value.newline depth, isSpace c = true := by
  intro c hc
  rcases List.mem_cons.mp hc with rfl | hc
  · rfl
  · rw [List.eq_of_mem_replicate hc]
    rfl

theorem skipSpace_newline (depth : Nat) (cs : List Char) :
    skipSpace (Value.newline depth ++ cs) = skipSpace cs :=
  skipSpace_append (isSpace_newline depth) cs

theorem colon_skipSpace (cs : List Char) : colon (skipSpace cs) = colon cs := by
  rw [colon, skipSpace_skipSpace, colon]

section Items

variable {item : Reader α} {fuel : Nat}

theorem moreItems_skipSpace (item : Reader α) (fuel : Nat) (cs : List Char) :
    moreItems item (fuel + 1) (skipSpace cs) = moreItems item (fuel + 1) cs := by
  rw [moreItems, skipSpace_skipSpace, moreItems]

theorem moreItems_comma_skipSpace (item : Reader α) (fuel : Nat) (cs : List Char) :
    moreItems item (fuel + 1) (',' :: skipSpace cs) = moreItems item (fuel + 1) (',' :: cs) := by
  simp only [moreItems, skipSpace_cons (c := ',') rfl, skipSpace_skipSpace]

theorem moreItems_comma (hspace : isSpace c = false) (hclose : c ≠ ']') :
    moreItems item (fuel + 1) (',' :: c :: cs) =
      (item.andThen fun x => (moreItems item fuel).map (x :: ·)) (c :: cs) := by
  simp only [moreItems, skipSpace_cons (c := ',') rfl, skipSpace_cons hspace]
  split
  · next h => cases h
  · next h => exact absurd (List.cons.inj h).1 hclose
  · rfl

theorem moreItems_other (hspace : isSpace c = false) (hclose : c ≠ ']') (hcomma : c ≠ ',') :
    moreItems item (fuel + 1) (c :: cs) = .error ⟨.noCommaInList, c :: cs, 1⟩ := by
  rw [moreItems, skipSpace_cons hspace]
  split
  · next h => cases h
  · next h => exact absurd (List.cons.inj h).1 hclose
  · next h => exact absurd (List.cons.inj h).1 hcomma
  · next h => rw [h]

theorem items_skipSpace (item : Reader α) (cs : List Char) :
    items item (skipSpace cs) = items item cs := by
  rw [items, skipSpace_skipSpace, items]

theorem items_cons (hspace : isSpace c = false) (hclose : c ≠ ']') :
    items item (c :: cs) =
      (item.andThen fun x r => ((moreItems item (r.length + 1)).map (x :: ·)) r) (c :: cs) := by
  rw [items, skipSpace_cons hspace]
  split
  · next h => cases h
  · next h => exact absurd (List.cons.inj h).1 hclose
  · rfl

end Items

section Members

variable {member : σ → Reader σ} {s : σ} {fuel : Nat}

theorem moreMembers_skipSpace (member : σ → Reader σ) (s : σ) (fuel : Nat) (cs : List Char) :
    moreMembers member (fuel + 1) s (skipSpace cs) = moreMembers member (fuel + 1) s cs := by
  rw [moreMembers, skipSpace_skipSpace, moreMembers]

theorem moreMembers_comma_skipSpace (member : σ → Reader σ) (s : σ) (fuel : Nat)
    (cs : List Char) :
    moreMembers member (fuel + 1) s (',' :: skipSpace cs) =
      moreMembers member (fuel + 1) s (',' :: cs) := by
  simp only [moreMembers, skipSpace_cons (c := ',') rfl, skipSpace_skipSpace]

theorem moreMembers_comma_other (hspace : isSpace c = false) (hquote : c ≠ '"') :
    ∃ e, moreMembers member (fuel + 1) s (',' :: c :: cs) = .error e := by
  simp only [moreMembers, skipSpace_cons (c := ',') rfl, skipSpace_cons hspace]
  split
  · exact ⟨_, rfl⟩
  · next h => exact absurd (List.cons.inj h).1 hquote
  · exact ⟨_, rfl⟩
  · exact ⟨_, rfl⟩

theorem moreMembers_other (hspace : isSpace c = false) (hclose : c ≠ '\x7d') (hcomma : c ≠ ',') :
    moreMembers member (fuel + 1) s (c :: cs) = .error ⟨.noCommaInObject, c :: cs, 1⟩ := by
  rw [moreMembers, skipSpace_cons hspace]
  split
  · next h => cases h
  · next h => exact absurd (List.cons.inj h).1 hclose
  · next h => exact absurd (List.cons.inj h).1 hcomma
  · next h => rw [h]

theorem members_skipSpace (member : σ → Reader σ) (s : σ) (cs : List Char) :
    members member s (skipSpace cs) = members member s cs := by
  rw [members, skipSpace_skipSpace, members]

theorem members_other (hspace : isSpace c = false) (hclose : c ≠ '\x7d') (hquote : c ≠ '"') :
    members member s (c :: cs) = .error ⟨.keyNotText, c :: cs, 1⟩ := by
  rw [members, skipSpace_cons hspace]
  split
  · next h => cases h
  · next h => exact absurd (List.cons.inj h).1 hclose
  · next h => exact absurd (List.cons.inj h).1 hquote
  · rfl

end Members

end Mockup.Json.Reader
