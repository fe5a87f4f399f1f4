import Mockup.Proofs.Json.Decoded
import Mockup.Proofs.Payload.Ordered
import Mockup.Proofs.Payload.Readable

/-! Specifications from outside. Those that are decoded from a text and those that are made of a
payload are ordered. -/

namespace Mockup

open Json Json.Decoder Json.Field

theorem Component.yields_ordered : Component.record.decoder.Yields Component.Ordered := by
  refine Record.yields_decoder nofun fun f hf => ?_
  simp only [Component.record, List.mem_cons, List.not_mem_nil, or_false] at hf
  -- only the last field has rows of data
  rcases hf with rfl | rfl | rfl | rfl | rfl | rfl | rfl
  · exact keeps_required (yields_true _) fun _ _ _ hc => hc
  · exact keeps_optional (yields_true _) fun _ _ _ hc => hc
  · exact keeps_optional (yields_true _) fun _ _ _ hc => hc
  · exact keeps_optional (yields_true _) fun _ _ _ hc => hc
  · exact keeps_defaulted (yields_true _) fun _ _ _ hc => hc
  · exact keeps_optional (yields_true _) fun _ _ _ hc => hc
  · exact keeps_optional (yields_entries _).list fun _ hrows _ _ => hrows

theorem Screen.yields_ordered :
    Screen.record.decoder.Yields fun x => ∀ c ∈ x.components, c.Ordered := by
  refine Record.yields_decoder nofun fun f hf => ?_
  simp only [Screen.record, List.mem_cons, List.not_mem_nil, or_false] at hf
  rcases hf with rfl | rfl | rfl | rfl | rfl
  · exact keeps_required (yields_true _) fun _ _ _ hx => hx
  · exact keeps_required (yields_true _) fun _ _ _ hx => hx
  · exact keeps_defaulted (yields_true _) fun _ _ _ hx => hx
  · exact keeps_optional (yields_true _) fun _ _ _ hx => hx
  · exact keeps_defaulted Component.yields_ordered.list fun _ hcs _ _ => hcs

namespace Spec

theorem yields_ordered : record.decoder.Yields Ordered := by
  refine Record.yields_decoder ⟨nofun, nofun⟩ fun f hf => ?_
  simp only [record, List.mem_cons, List.not_mem_nil, or_false] at hf
  rcases hf with rfl | rfl | rfl | rfl | rfl | rfl | rfl | rfl | rfl
  · exact keeps_required (yields_true _) fun _ _ _ hs => ⟨hs.components, hs.metadata⟩
  · exact keeps_required (yields_true _) fun _ _ _ hs => ⟨hs.components, hs.metadata⟩
  · exact keeps_optional (yields_true _) fun _ _ _ hs => ⟨hs.components, hs.metadata⟩
  · exact keeps_optional (yields_true _) fun _ _ _ hs => ⟨hs.components, hs.metadata⟩
  · exact keeps_required Screen.yields_ordered.list fun _ hxs _ hs => ⟨hxs, hs.metadata⟩
  · exact keeps_optional (yields_true _) fun _ _ _ hs => ⟨hs.components, hs.metadata⟩
  · exact keeps_optional (yields_true _) fun _ _ _ hs => ⟨hs.components, hs.metadata⟩
  · exact keeps_optional (yields_true _) fun _ _ _ hs => ⟨hs.components, hs.metadata⟩
  · exact keeps_optional yields_object fun _ hm _ hs => ⟨hs.components, hm⟩

theorem ordered_of_decode {text : String} {s : Spec} (h : decode text = .ok s) : s.Ordered :=
  yields_ordered.decode h

/-- The specification is decoded from a text, as files have it, or made of a payload, as replies have
it. -/
inductive Obtained : Spec → Prop where
  | decoded {text : String} {s : Spec} (h : decode text = .ok s) : Obtained s
  | normalized {ctx : Context} {raw : Value} {s : Spec} (hraw : raw.WellFormed)
      (h : Payload.normalize ctx raw = .ok s) : Obtained s

theorem Obtained.ordered {s : Spec} (h : s.Obtained) : s.Ordered := by
  cases h with
  | decoded h => exact ordered_of_decode h
  | normalized hraw h =>
    obtain ⟨m, hroot, rfl⟩ := Payload.normalize_ok_iff.mp h
    have hm := Payload.wellFormed_unwrap (Payload.wellFormed_root hraw hroot)
    exact Payload.ordered_specOf _ (Payload.wellFormed_rename .spec hm)

end Spec

end Mockup
