import Mockup.Proofs.Json.Record
import Mockup.Proofs.Json.Same
import Mockup.Spec.Record

/-! What the sorted objects of components, screens and specifications hold at each key. -/

namespace Mockup

open Json

theorem Json.Value.normal_map_text (x : Option String) :
    (x.map Value.text).map Value.normal = x.map Value.text := by cases x <;> rfl

theorem Json.Value.normal_texts (xs : List String) : (Value.texts xs).normal = .texts xs :=
  (Value.wellFormed_texts xs).normal_eq

theorem Json.Value.normal_map_texts (x : Option (List String)) :
    (x.map Value.texts).map Value.normal = x.map Value.texts := by
  cases x with
  | none => rfl
  | some xs => rw [Option.map_some, Option.map_some, normal_texts]

theorem Json.Value.normal_list_map {α : Type} (f : α → Value) (xs : List α) :
    (Value.list (xs.map f)).normal = .list (xs.map fun x => (f x).normal) := by
  rw [normal, normalItems_eq_map, List.map_map]
  rfl

theorem Component.get?_record (c : Component) (key : String) :
    (record.sortedMembers c).get? key =
      ((record.field? key).bind fun f => f.member? c).map Value.normal :=
  record.get?_sortedMembers c (by decide) key

theorem Screen.get?_record (s : Screen) (key : String) :
    (record.sortedMembers s).get? key =
      ((record.field? key).bind fun f => f.member? s).map Value.normal :=
  record.get?_sortedMembers s (by decide) key

theorem Spec.get?_record (s : Spec) (key : String) :
    (record.sortedMembers s).get? key =
      ((record.field? key).bind fun f => f.member? s).map Value.normal :=
  record.get?_sortedMembers s (by decide) key

theorem Component.members_spec (c : Component) :
    let m := record.sortedMembers c
    m.get? "kind" = some (.text c.kind.name) ∧ m.get? "title" = c.title.map .text ∧
      m.get? "description" = c.description.map .text ∧ m.get? "fields" = c.fields.map .texts ∧
      m.get? "actions" = some (.texts c.actions) ∧
      m.get? "sample_items" = c.sampleItems.map .texts ∧
      m.get? "dataset" = c.dataset.map fun rows => .list (rows.map fun r => (row r).normal) := by
  refine ⟨?_, ?_, ?_, ?_, ?_, ?_, ?_⟩ <;> rw [get?_record]
  · rfl
  · exact Value.normal_map_text c.title
  · exact Value.normal_map_text c.description
  · exact Value.normal_map_texts c.fields
  · exact congrArg some (Value.normal_texts c.actions)
  · exact Value.normal_map_texts c.sampleItems
  · change (c.dataset.map fun rows => Value.list (rows.map row)).map Value.normal = _
    rw [Option.map_map]
    exact congrArg (c.dataset.map ·) (funext fun rows => Value.normal_list_map row rows)

theorem Screen.members_spec (s : Screen) :
    let m := record.sortedMembers s
    m.get? "name" = some (.text s.name) ∧ m.get? "goal" = some (.text s.goal) ∧
      m.get? "primary_actions" = some (.texts s.primaryActions) ∧
      m.get? "layout_notes" = s.layoutNotes.map .text ∧
      m.get? "components" = some (.list (s.components.map Component.record.toValue)) := by
  refine ⟨?_, ?_, ?_, ?_, ?_⟩ <;> rw [get?_record]
  · rfl
  · rfl
  · exact congrArg some (Value.normal_texts s.primaryActions)
  · exact Value.normal_map_text s.layoutNotes
  · exact congrArg some (Value.normal_list_map Component.record.ordered s.components)

theorem Spec.members_spec (s : Spec) :
    let m := record.sortedMembers s
    m.get? "title" = some (.text s.title) ∧ m.get? "summary" = some (.text s.summary) ∧
      m.get? "goal" = s.goal.map .text ∧ m.get? "success_metrics" = s.successMetrics.map .texts ∧
      m.get? "key_screens" = some (.list (s.keyScreens.map Screen.record.toValue)) ∧
      m.get? "user_flow" = s.userFlow.map .texts ∧
      m.get? "visual_style" = s.visualStyle.map .text ∧
      m.get? "call_to_action" = s.callToAction.map .text ∧
      m.get? "metadata" = s.metadata.map fun m => (Value.object m).normal := by
  refine ⟨?_, ?_, ?_, ?_, ?_, ?_, ?_, ?_, ?_⟩ <;> rw [get?_record]
  · rfl
  · rfl
  · exact Value.normal_map_text s.goal
  · exact Value.normal_map_texts s.successMetrics
  · exact congrArg some (Value.normal_list_map Screen.record.ordered s.keyScreens)
  · exact Value.normal_map_texts s.userFlow
  · exact Value.normal_map_text s.visualStyle
  · exact Value.normal_map_text s.callToAction
  · exact Option.map_map ..

theorem Spec.same_refl (s : Spec) : s.same s = true := Value.same_refl s.toValue

end Mockup
