import Mockup.Proofs.Spec.Decoded
import Mockup.Proofs.Spec.Equal
import Mockup.Proofs.Store.Manifest

/-! Which manifests can be read back. The specification stands one level below the manifest, so
that one level less is left for it than for a specification in a text of its own. -/

namespace Mockup

open Json Json.Decoder Json.Field Json.Record

def Spec.levels (s : Spec) : Nat := (Spec.record.ordered s).levels

structure Spec.Plain (s : Spec) : Prop where
  ordered : s.Ordered
  realFree : s.RealFree

namespace Manifest

variable {m : Manifest}

theorem levels_ordered (m : Manifest) : (record.ordered m).levels = m.spec.levels + 1 := by
  have hmembers : record.members m =
      [("slug", .text m.slug), ("public_url", .text m.publicUrl), ("path", .text m.path.text),
        ("published_at", .text m.publishedAt), ("spec", Spec.record.ordered m.spec)] := rfl
  rw [Record.ordered, hmembers, Value.levels]
  simp [Value.levelsOfMembers, Value.levels, Spec.levels]

theorem recovers (h : m.spec.Plain) : record.decoder.Recovers m (record.ordered m) := by
  have hpath : ((textAs "path string").map Files.Path.mk).Recovers m.path (.text m.path.text) :=
    (recovers_textAs "path string" m.path.text).map Files.Path.mk
  refine recovers_decoder (by decide) ?_
  exact .cons (restores_required (recovers_textAs "a string" m.slug)) <|
    .cons (restores_required (recovers_textAs "a string" m.publicUrl)) <|
    .cons (restores_required hpath) <|
    .cons (restores_required (recovers_textAs "a string" m.publishedAt)) <|
    .cons (restores_required (Spec.recovers h.ordered h.realFree)) <| .nil m m

theorem parse_of_decode {text : String} (h : record.decoder.decode text = .ok m) :
    parse text = .ok m := by
  rw [parse, h]

theorem parse_indented (h : m.spec.Plain) (hlevels : m.spec.levels ≤ 126) :
    parse m.indented = .ok m := by
  refine parse_of_decode ((recovers h).decode.1 ?_)
  rw [levels_ordered]
  exact Nat.succ_le_succ hlevels

theorem parse_indented_of_deep (h : m.spec.Plain) (hlevels : ¬ m.spec.levels ≤ 126) :
    ∃ why, parse m.indented = .error why := by
  obtain ⟨f, hf⟩ := (recovers h).decode.2 (by
    rw [levels_ordered]
    exact fun hle => hlevels (Nat.le_of_succ_le_succ hle))
  refine ⟨f.message m.indented.toList, ?_⟩
  rw [parse]
  unfold indented
  rw [hf]

/-- The text of the manifest is that of some manifest, though not always of the same one. -/
def Readable (m : Manifest) : Prop := ∃ m', parse m.indented = .ok m'

theorem not_readable (h : ¬ m.Readable) : ∃ why, parse m.indented = .error why := by
  cases hparse : parse m.indented with
  | ok m' => exact absurd ⟨m', hparse⟩ h
  | error why => exact ⟨why, rfl⟩

theorem readable_iff (h : m.spec.Plain) : m.Readable ↔ m.spec.levels ≤ 126 := by
  refine ⟨fun ⟨m', hparse⟩ => ?_, fun hlevels => ⟨m, parse_indented h hlevels⟩⟩
  by_contra hdeep
  obtain ⟨why, hwhy⟩ := parse_indented_of_deep h hdeep
  rw [hwhy] at hparse
  cases hparse

theorem ordered_of_parse {text : String} (h : parse text = .ok m) : m.spec.Ordered := by
  have hyields : record.decoder.Yields fun m => m.spec.Ordered := by
    refine Record.yields_decoder ⟨nofun, nofun⟩ fun f hf => ?_
    simp only [record, List.mem_cons, List.not_mem_nil, or_false] at hf
    rcases hf with rfl | rfl | rfl | rfl | rfl
    · exact keeps_required (yields_true _) fun _ _ _ hm => hm
    · exact keeps_required (yields_true _) fun _ _ _ hm => hm
    · exact keeps_required (yields_true _) fun _ _ _ hm => hm
    · exact keeps_required (yields_true _) fun _ _ _ hm => hm
    · exact keeps_required Spec.yields_ordered fun _ hs _ _ => hs
  rw [parse] at h
  split at h
  · next m' hdecode =>
    cases h
    exact hyields.decode hdecode
  · cases h

end Manifest

end Mockup
