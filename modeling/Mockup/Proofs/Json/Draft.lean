import Mockup.Proofs.Json.Quoted
import Mockup.Proofs.Json.Record
import Mockup.Proofs.Json.Space

/-! Reading a record member by member. A member whose text is known is read into the draft; of any
text that follows it is known that no field is read twice, so that what was read stays. -/

namespace Mockup.Json

open Reader

namespace Reader

variable {σ : Type}

theorem skipSpace_quoted (s : String) (cs : List Char) :
    skipSpace (quoted s ++ cs) = quoted s ++ cs := rfl

theorem textAs_read (wanted : String) (levels : Nat) (s : String) (rest : List Char) :
    (Decoder.textAs wanted).read levels (' ' :: (quoted s ++ rest)) = .ok (s, rest) :=
  quotedText_quoted s rest

theorem moreMembers_spaced {space : List Char} (hspace : ∀ c ∈ space, isSpace c = true)
    (member : σ → Reader σ) (fuel : Nat) (s : σ) (key : String) (rest : List Char) :
    moreMembers member (fuel + 1) s (',' :: (space ++ (quoted key ++ rest))) =
      ((member s).andThen fun s => moreMembers member fuel s) (quoted key ++ rest) := by
  have hcomma (cs : List Char) : skipSpace (',' :: cs) = ',' :: cs := rfl
  simp only [moreMembers, hcomma, skipSpace_append hspace, skipSpace_quoted]
  rfl

theorem moreMembers_newline (member : σ → Reader σ) (fuel : Nat) (s : σ) (depth : Nat)
    (key : String) (rest : List Char) :
    moreMembers member (fuel + 1) s (',' :: (Value.newline depth ++ (quoted key ++ rest))) =
      ((member s).andThen fun s => moreMembers member fuel s) (quoted key ++ rest) :=
  moreMembers_spaced (isSpace_newline depth) member fuel s key rest

end Reader

namespace Record

variable {α : Type} {r : Record α} {levels : Nat}

theorem readMember_eq {key : String} {f : Field α} {g : α → α} {text rest : List Char}
    {draft : Draft α} (hfield : r.field? key = some f) (hnew : key ∉ draft.seen)
    (hread : f.update.read levels (' ' :: (text ++ rest)) = .ok (g, rest)) :
    r.readMember levels draft (quoted key ++ ':' :: ' ' :: (text ++ rest)) =
      .ok (⟨g draft.result, key :: draft.seen⟩, rest) := by
  have hseen : draft.seen.contains key = false := by simpa using hnew
  have hcolon (cs : List Char) : colon (':' :: cs) = .ok ((), cs) := rfl
  simp only [readMember, andThen, quotedText_quoted, hfield, hseen, if_neg Bool.false_ne_true]
  simp only [hcolon, Reader.map, hread]

theorem yields_readMember {keys : List String} {Q : α → Prop}
    (hupdate : ∀ f ∈ r.fields, f.key ∉ keys →
      (f.update.read levels).Yields fun g => ∀ x, Q x → Q (g x))
    (draft : Draft α) (hdraft : (∀ k ∈ keys, k ∈ draft.seen) ∧ Q draft.result) :
    (r.readMember levels draft).Yields fun d => (∀ k ∈ keys, k ∈ d.seen) ∧ Q d.result := by
  refine (yields_true _).andThen fun key _ => ?_
  cases hfield : r.field? key with
  | none => exact (yields_true _).andThen fun _ _ => .map fun _ _ _ _ => hdraft
  | some f =>
    obtain ⟨hmem, rfl⟩ := mem_of_field? hfield
    dsimp only
    split
    · intro cs d rest h
      cases h
    · next hnew =>
      have hkey : f.key ∉ keys := fun h => hnew (by simpa using hdraft.1 _ h)
      refine (yields_true _).andThen fun _ _ => .map fun cs g rest hg => ⟨fun k hk => ?_, ?_⟩
      · exact List.mem_cons_of_mem _ (hdraft.1 k hk)
      · exact hupdate f hmem hkey cs g rest hg _ hdraft.2

end Record

end Mockup.Json
