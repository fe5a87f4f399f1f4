import Mockup.Proofs.Payload.Readable
import Mockup.Proofs.Payload.Renamed

/-! How the keys of a payload are spelled. Whatever reads an object renames its keys first, so that
the object and the renamed one are read alike; and an envelope says no more than what is in it. -/

namespace Mockup.Payload

open Json

variable {m : Members}

def envelopeKeys : List String := ["prototype_spec", "prototypeSpec"]

/-- The members `m` are in an envelope, which has no other, and are none themselves. -/
structure Wraps (outer m : Members) : Prop where
  inner : ∀ key ∈ envelopeKeys, m.get? key = none
  held : ∃ key ∈ envelopeKeys, outer.get? key = some (.object m) ∧
    ∀ other ∈ envelopeKeys, other ≠ key → outer.get? other = none

theorem unwrap_eq_self (h : ∀ key ∈ envelopeKeys, m.get? key = none) : unwrap m = m := by
  rw [unwrap, h _ (by decide), h _ (by decide)]
  rfl

theorem Wraps.unwrap_eq {outer : Members} (h : Wraps outer m) : unwrap outer = m := by
  obtain ⟨key, hkey, hheld, hother⟩ := h.held
  rcases List.mem_pair.mp hkey with rfl | rfl
  · rw [unwrap, hheld, Option.some_or]
  · rw [unwrap, hheld, hother "prototype_spec" (by decide) (by decide), Option.none_or]

theorem heir?_of_single {level : Level} {a name : String} (ha : (a, name) ∈ level.aliases)
    (hsingle : ∀ p ∈ level.aliases, p.2 = name → p.1 = a) (hm : m.Sorted) :
    heir? level name m = m.get? a := by
  refine Option.ext fun v => (heir?_eq_some_iff hm).trans ⟨?_, fun hv => ?_⟩
  · rintro ⟨b, hb, hv, -⟩
    rwa [← hsingle _ hb rfl]
  · exact ⟨a, ha, hv, fun b hb _ => (hsingle _ hb rfl).ge⟩

/-- The envelope is looked for before the keys are renamed, under both of its keys. -/
theorem rename_unwrap_rename (hm : m.Sorted) :
    rename .spec (unwrap (rename .spec m)) = rename .spec (unwrap m) := by
  have hname : (rename .spec m).get? "prototype_spec" =
      (m.get? "prototype_spec").or (m.get? "prototypeSpec") := by
    rw [get?_rename_eq (by decide) hm, heir?_of_single (a := "prototypeSpec") (by decide)
      (by decide) hm]
  have hlookup : Level.spec.aliases.lookup "prototypeSpec" = some "prototype_spec" := by decide
  have halias : (rename .spec m).get? "prototypeSpec" = none := get?_renameInto_alias hlookup
  rw [unwrap, unwrap, hname, halias, Option.or_none]
  split
  · rfl
  · exact rename_rename .spec m

/-- Renaming the keys of an object is determined by what it makes of each of them, and changes
nothing of what is read from the object, as the payload, a screen or a component. Nor does it matter
whether the payload is in an envelope, and what else is in there. -/
theorem spelling_irrelevant (hm : m.Sorted) :
    (∀ level, rename level (rename level m) = rename level m ∧
      ∀ r, Renamed level m r ↔ r = rename level m) ∧
    (∀ ctx, normalize ctx (.object (rename .spec m)) = normalize ctx (.object m)) ∧
    (∀ place, screen? place (.object (rename .screen m)) = screen? place (.object m)) ∧
    component? (.object (rename .component m)) = component? (.object m) ∧
    ∀ ctx outer, Wraps outer m → normalize ctx (.object outer) = normalize ctx (.object m) := by
  refine ⟨fun level => ⟨rename_rename level m, fun r => ⟨fun h => h.eq hm, ?_⟩⟩, fun ctx => ?_,
    fun place => ?_, ?_, fun ctx outer houter => ?_⟩
  · rintro rfl
    exact renamed_rename level hm
  · simp only [normalize, root, Except.map, rename_unwrap_rename hm]
  · simp only [screen?, rename_rename]
  · simp only [component?, rename_rename]
  · simp only [normalize, root, Except.map, houter.unwrap_eq, unwrap_eq_self houter.inner]

theorem spelling_irrelevant_button :
    let m : Members :=
      [("kind", .text "cta"), ("primaryActions", .texts ["Buy"]),
        ("primary_actions", .texts ["Sell"]), ("type", .text "hero")]
    let outer : Members := [("kind", .text "form"), ("prototypeSpec", .object m)]
    m.Sorted ∧ Wraps outer m ∧
      rename .component m = [("actions", .texts ["Buy"]), ("kind", .text "cta")] ∧
      Renamed .component m (rename .component m) ∧
      component? (.object (rename .component m)) = component? (.object m) ∧
      normalize {} (.object outer) = normalize {} (.object m) := by
  intro m outer
  have hm : m.Sorted := by
    rw [Members.Sorted]
    decide
  have houter : Wraps outer m := ⟨by decide, "prototypeSpec", by decide, rfl, by decide⟩
  obtain ⟨hrename, -, -, hcomponent, henvelope⟩ := spelling_irrelevant hm
  exact ⟨hm, houter, rfl, ((hrename .component).2 _).mpr rfl, hcomponent, henvelope {} outer houter⟩

end Mockup.Payload
