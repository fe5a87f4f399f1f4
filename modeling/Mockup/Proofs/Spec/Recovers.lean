import Mockup.Proofs.Json.Recovers
import Mockup.Proofs.Spec.Ordered

/-! Specifications come back from their own text, field by field, if they are ordered and without
doubles. It does not matter whether the text is compact or indented. -/

namespace Mockup

open Json Json.Decoder Json.Field Json.Record

theorem Kind.recovers (k : Kind) : Kind.decoder.Recovers k (.text k.name) := by
  cases k <;> exact recovers_variant (by decide)

theorem Component.recovers_row {cells : List (String × String)} (h : OrderedRow cells) :
    (entries text).Recovers cells (row cells) :=
  recovers_entries h fun p _ => recovers_textAs "a string" p.2

section Optional

theorem recovers_optionalText (x : Option String) :
    ∀ y ∈ x, text.Recovers y (.text y) ∧ Value.text y ≠ .null :=
  fun y _ => ⟨recovers_textAs "a string" y, nofun⟩

theorem recovers_optionalTexts (x : Option (List String)) :
    ∀ y ∈ x, texts.Recovers y (.texts y) ∧ Value.texts y ≠ .null :=
  fun y _ => ⟨recovers_texts y, nofun⟩

end Optional

theorem Component.recovers {c : Component} (h : c.Ordered) :
    Component.record.decoder.Recovers c (Component.record.ordered c) := by
  have hrows : ∀ rows ∈ c.dataset, (list (entries text)).Recovers rows
      (.list (rows.map row)) ∧ Value.list (rows.map row) ≠ .null := by
    intro rows hrows
    exact ⟨recovers_list fun cells hcells => recovers_row (h rows hrows cells hcells), nofun⟩
  refine recovers_decoder (by decide) ?_
  exact .cons (restores_required (Kind.recovers c.kind)) <|
    .cons (restores_optional (recovers_optionalText c.title) rfl) <|
    .cons (restores_optional (recovers_optionalText c.description) rfl) <|
    .cons (restores_optional (recovers_optionalTexts c.fields) rfl) <|
    .cons (restores_defaulted (recovers_texts c.actions)) <|
    .cons (restores_optional (recovers_optionalTexts c.sampleItems) rfl) <|
    .cons (restores_optional hrows rfl) <| .nil c c

theorem Screen.recovers {x : Screen} (h : ∀ c ∈ x.components, c.Ordered) :
    Screen.record.decoder.Recovers x (Screen.record.ordered x) := by
  refine recovers_decoder (by decide) ?_
  exact .cons (restores_required (recovers_textAs "a string" x.name)) <|
    .cons (restores_required (recovers_textAs "a string" x.goal)) <|
    .cons (restores_defaulted (recovers_texts x.primaryActions)) <|
    .cons (restores_optional (recovers_optionalText x.layoutNotes) rfl) <|
    .cons (restores_defaulted (recovers_list fun c hc => Component.recovers (h c hc))) <| .nil x x

def Spec.RealFree (s : Spec) : Prop := ∀ m ∈ s.metadata, (Value.object m).RealFree

theorem Spec.recovers {s : Spec} (h : s.Ordered) (hreal : s.RealFree) :
    Spec.record.decoder.Recovers s (Spec.record.ordered s) := by
  have hmetadata : ∀ m ∈ s.metadata, object.Recovers m (.object m) ∧ Value.object m ≠ .null := by
    intro m hm
    exact ⟨recovers_object (h.metadata m hm) (hreal m hm), nofun⟩
  refine recovers_decoder (by decide) ?_
  exact .cons (restores_required (recovers_textAs "a string" s.title)) <|
    .cons (restores_required (recovers_textAs "a string" s.summary)) <|
    .cons (restores_optional (recovers_optionalText s.goal) rfl) <|
    .cons (restores_optional (recovers_optionalTexts s.successMetrics) rfl) <|
    .cons (restores_required (recovers_list fun x hx => Screen.recovers (h.components x hx))) <|
    .cons (restores_optional (recovers_optionalTexts s.userFlow) rfl) <|
    .cons (restores_optional (recovers_optionalText s.visualStyle) rfl) <|
    .cons (restores_optional (recovers_optionalText s.callToAction) rfl) <|
    .cons (restores_optional hmetadata rfl) <| .nil s s

namespace Spec

/-- A specification comes back from its compact text, and from its indented text, just when that has
no more levels than may be read. -/
theorem decode_written {s : Spec} (h : s.Ordered) (hreal : s.RealFree) :
    (decode s.compact = .ok s ↔ (record.ordered s).levels ≤ 127) ∧
      (decode s.indented = .ok s ↔ (record.ordered s).levels ≤ 127) := by
  have hback {text : String}
      (hread : ((record.ordered s).levels ≤ Reader.maxLevels → decode text = .ok s) ∧
        (¬ (record.ordered s).levels ≤ Reader.maxLevels → ∃ e, decode text = .error e)) :
      decode text = .ok s ↔ (record.ordered s).levels ≤ 127 := by
    refine ⟨fun hok => ?_, hread.1⟩
    by_contra hdeep
    obtain ⟨e, he⟩ := hread.2 hdeep
    rw [hok] at he
    cases he
  exact ⟨hback (recovers h hreal).decode_compact, hback (recovers h hreal).decode⟩

def varied : Spec where
  title := "Say \"hi\"\n"
  summary := ""
  successMetrics := some []
  keyScreens := [
    { name := "", goal := "C:\\tmp\u2028", primaryActions := ["", "é"], layoutNotes := some ""
      components := [
        { kind := .stats, fields := some [], dataset := some [[], [("a", "1"), ("b", "\t")]] }] }]
  metadata := some
    [("a", .object []),
      ("b", .list [.null, .number (.int ⟨-0x8000000000000000, by decide, by decide⟩)])]

theorem ordered_varied : varied.Ordered where
  components := by
    intro x hx c hc rows hrows cells hcells
    obtain rfl := List.mem_singleton.mp hx
    obtain rfl := List.mem_singleton.mp hc
    obtain rfl := Option.some.inj hrows
    simp only [List.mem_cons, List.not_mem_nil, or_false] at hcells
    rcases hcells with rfl | rfl <;> (unfold Component.OrderedRow; decide)
  metadata := by
    rintro m ⟨⟩
    refine .object (by decide) ?_
    simp only [List.forall_mem_cons]
    refine ⟨.object List.Pairwise.nil nofun, .list ?_, nofun⟩
    simp only [List.forall_mem_cons]
    exact ⟨.null, .number _, nofun⟩

theorem realFree_varied : varied.RealFree := by
  rintro m ⟨⟩
  refine .object ?_
  simp only [List.forall_mem_cons]
  refine ⟨.object nofun, .list ?_, nofun⟩
  simp only [List.forall_mem_cons]
  exact ⟨.null, .int _, nofun⟩

theorem decode_written_varied :
    varied.Ordered ∧ varied.RealFree ∧ decode varied.compact = .ok varied ∧
      decode varied.indented = .ok varied := by
  have hwritten := decode_written ordered_varied realFree_varied
  have hlevels : (record.ordered varied).levels ≤ 127 := by decide
  exact ⟨ordered_varied, realFree_varied, hwritten.1.mpr hlevels, hwritten.2.mpr hlevels⟩

end Spec

end Mockup
