import Mockup.Proofs.Json.Takes
import Mockup.Proofs.Spec.Valid

/-! The canonical schema and the records of specifications say the same. What the schema accepts is
decoded, and is written again but for the members that have no field. -/

namespace Mockup

open Json Json.Decoder Json.Field

def Component.pruned : Value → Value := Component.record.pruned fun _ v => v

def Screen.pruned : Value → Value :=
  Screen.record.pruned fun key => if key = "components" then Value.onItems Component.pruned else id

/-- The specification, its screens and their components without the members that have no field. -/
def Spec.pruned : Value → Value :=
  Spec.record.pruned fun key => if key = "key_screens" then Value.onItems Screen.pruned else id

theorem Kind.takes_decoder :
    Kind.decoder.Takes (fun k => .text k.name) (.choice (Kind.all.map Kind.name)) id := by
  intro v _ h
  obtain ⟨name, hname, rfl⟩ := h.of_choice
  obtain ⟨k, -, rfl⟩ := List.mem_map.mp hname
  exact ⟨h, k, by cases k <;> decide, rfl⟩

theorem Component.takes_rows :
    (list (entries text)).Takes (fun rows => .list (rows.map row)) (.list (.mapping (.text 0)) 0)
      id :=
  onItems_id ▸ (takes_text 0).entries.list 0

theorem Component.independent : record.Independent := by
  intro f hf f' hf' hne
  simp only [record, List.mem_cons, List.not_mem_nil, or_false] at hf hf'
  rcases hf with rfl | rfl | rfl | rfl | rfl | rfl | rfl
  all_goals
    refine spares_of_update rfl fun y c => ?_
    rcases hf' with rfl | rfl | rfl | rfl | rfl | rfl | rfl
    all_goals first | rfl | exact absurd rfl hne

theorem Screen.independent : record.Independent := by
  intro f hf f' hf' hne
  simp only [record, List.mem_cons, List.not_mem_nil, or_false] at hf hf'
  rcases hf with rfl | rfl | rfl | rfl | rfl
  all_goals
    refine spares_of_update rfl fun y x => ?_
    rcases hf' with rfl | rfl | rfl | rfl | rfl
    all_goals first | rfl | exact absurd rfl hne

theorem Spec.independent : record.Independent := by
  intro f hf f' hf' hne
  simp only [record, List.mem_cons, List.not_mem_nil, or_false] at hf hf'
  rcases hf with rfl | rfl | rfl | rfl | rfl | rfl | rfl | rfl | rfl
  all_goals
    refine spares_of_update rfl fun y s => ?_
    rcases hf' with rfl | rfl | rfl | rfl | rfl | rfl | rfl | rfl | rfl
    all_goals first | rfl | exact absurd rfl hne

theorem Json.Field.takes_optionalText {α : Type} {key : String} {get : α → Option String}
    {set : Option String → α → α} (hget : ∀ y x, get (set y x) = y) :
    (optional key text .text get set).Takes (.text 0) id :=
  takes_optional (takes_text 0) nofun hget

theorem Json.Field.takes_optionalTexts {α : Type} {key : String} {get : α → Option (List String)}
    {set : Option (List String) → α → α} (hget : ∀ y x, get (set y x) = y) :
    (optional key texts .texts get set).Takes Spec.strings id :=
  takes_optional (takes_texts 0) nofun hget

theorem Component.takes_decoder :
    record.decoder.Takes record.ordered Spec.componentSchema pruned := by
  refine Record.Suits.takes_decoder
    { nodup := by decide, independent, takes := ?_
      listed := by decide, needed := by decide, absent := by decide }
  simp only [List.forall_mem_cons]
  refine ⟨?actions, ?dataset, ?description, ?fields, ?kind, ?items, ?title, nofun⟩
  case actions => exact ⟨_, rfl, takes_defaulted (takes_texts 0) fun _ _ => rfl⟩
  case dataset => exact ⟨_, rfl, takes_optional takes_rows nofun fun _ _ => rfl⟩
  case description => exact ⟨_, rfl, takes_optionalText fun _ _ => rfl⟩
  case fields => exact ⟨_, rfl, takes_optionalTexts fun _ _ => rfl⟩
  case kind => exact ⟨_, rfl, takes_required Kind.takes_decoder fun _ _ => rfl⟩
  case items => exact ⟨_, rfl, takes_optionalTexts fun _ _ => rfl⟩
  case title => exact ⟨_, rfl, takes_optionalText fun _ _ => rfl⟩

theorem Screen.takes_decoder : record.decoder.Takes record.ordered Spec.screenSchema pruned := by
  refine Record.Suits.takes_decoder
    { nodup := by decide, independent, takes := ?_
      listed := by decide, needed := by decide, absent := by decide }
  simp only [List.forall_mem_cons]
  refine ⟨?components, ?goal, ?notes, ?name, ?actions, nofun⟩
  case components =>
    exact ⟨_, rfl, takes_defaulted (Component.takes_decoder.list 1) fun _ _ => rfl⟩
  case goal => exact ⟨_, rfl, takes_required (takes_text 0) fun _ _ => rfl⟩
  case notes => exact ⟨_, rfl, takes_optionalText fun _ _ => rfl⟩
  case name => exact ⟨_, rfl, takes_required (takes_text 1) fun _ _ => rfl⟩
  case actions => exact ⟨_, rfl, takes_defaulted (takes_texts 0) fun _ _ => rfl⟩

namespace Spec

theorem takes_decoder : record.decoder.Takes record.ordered schema pruned := by
  refine Record.Suits.takes_decoder
    { nodup := by decide, independent, takes := ?_
      listed := by decide, needed := by decide, absent := by decide }
  simp only [List.forall_mem_cons]
  refine ⟨?call, ?goal, ?screens, ?metadata, ?metrics, ?summary, ?title, ?flow, ?style, nofun⟩
  case call => exact ⟨_, rfl, takes_optionalText fun _ _ => rfl⟩
  case goal => exact ⟨_, rfl, takes_optionalText fun _ _ => rfl⟩
  case screens => exact ⟨_, rfl, takes_required (Screen.takes_decoder.list 1) fun _ _ => rfl⟩
  case metadata => exact ⟨_, rfl, takes_optional takes_object nofun fun _ _ => rfl⟩
  case metrics => exact ⟨_, rfl, takes_optionalTexts fun _ _ => rfl⟩
  case summary => exact ⟨_, rfl, takes_required (takes_text 0) fun _ _ => rfl⟩
  case title => exact ⟨_, rfl, takes_required (takes_text 1) fun _ _ => rfl⟩
  case flow => exact ⟨_, rfl, takes_optionalTexts fun _ _ => rfl⟩
  case style => exact ⟨_, rfl, takes_optionalText fun _ _ => rfl⟩

theorem checkValue_eq_ok_iff {v : Value} : checkValue v = .ok () ↔ schema.Accepts v := by
  rw [checkValue, Schema.Accepts]
  cases schema.violations v <;> simp

/-- A value without violations is decoded, and is written again without the members that have no
field, still without violations. -/
theorem decodes_of_checkValue {v : Value} (hv : v.WellFormed) (h : checkValue v = .ok ()) :
    ∃ s, ofValue? v = some s ∧ s.toValue = pruned v ∧ checkValue s.toValue = .ok () := by
  obtain ⟨hpruned, s, hs, hwritten⟩ := takes_decoder v hv (checkValue_eq_ok_iff.mp h)
  have hvalue : s.toValue = pruned v := hwritten
  exact ⟨s, hs, hvalue, checkValue_eq_ok_iff.mpr (hvalue ▸ hpruned)⟩

def annotated : Value := .object
  [("$schema", .text "prototype"),
    ("key_screens", .list [.object
      [("components", .list [.object
        [("actions", .list []), ("dataset", .list [.object [("id", .text "1")]]), ("id", .null),
          ("kind", .text "list")]]),
        ("goal", .text ""), ("id", .bool true), ("name", .text "Home"),
        ("primary_actions", .list [.text "Go"])]]),
    ("metadata", .object [("id", .null)]), ("summary", .text ""), ("title", .text "Shop")]

theorem wellFormed_annotated : annotated.WellFormed := by
  have hcomponent : (Value.object [("actions", .list []),
      ("dataset", .list [.object [("id", .text "1")]]), ("id", .null),
      ("kind", .text "list")]).WellFormed := by
    refine .object (by decide) ?_
    simp only [List.forall_mem_cons]
    refine ⟨.list nofun, .list ?_, .null, .text _, nofun⟩
    refine List.forall_mem_singleton.mpr (.object (List.pairwise_singleton _ _) ?_)
    exact List.forall_mem_singleton.mpr (.text _)
  refine .object (by decide) ?_
  simp only [List.forall_mem_cons]
  refine ⟨.text _, .list (List.forall_mem_singleton.mpr ?screen), ?metadata, .text _, .text _,
    nofun⟩
  case screen =>
    refine .object (by decide) ?_
    simp only [List.forall_mem_cons]
    exact ⟨.list (List.forall_mem_singleton.mpr hcomponent), .text _, .bool _, .text _,
      .list (List.forall_mem_singleton.mpr (.text _)), nofun⟩
  case metadata =>
    exact .object (List.pairwise_singleton _ _) (List.forall_mem_singleton.mpr .null)

theorem decodes_annotated :
    annotated.WellFormed ∧ checkValue annotated = .ok () ∧
      ∃ s, ofValue? annotated = some s ∧
        s.toValue = .object
          [("key_screens", .list [.object
            [("components", .list [.object
              [("actions", .list []), ("dataset", .list [.object [("id", .text "1")]]),
                ("kind", .text "list")]]),
              ("goal", .text ""), ("name", .text "Home"),
              ("primary_actions", .list [.text "Go"])]]),
            ("metadata", .object [("id", .null)]), ("summary", .text ""), ("title", .text "Shop")] ∧
        checkValue s.toValue = .ok () := by
  have hcheck : checkValue annotated = .ok () := rfl
  exact ⟨wellFormed_annotated, hcheck, decodes_of_checkValue wellFormed_annotated hcheck⟩

end Spec

end Mockup
