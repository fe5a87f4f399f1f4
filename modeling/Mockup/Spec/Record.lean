import Mockup.Json.Record
import Mockup.Spec.Basic

/-! Specifications as JSON. -/

namespace Mockup

open Json

def Kind.decoder : Decoder Kind := Decoder.variant (Kind.all.map fun k => (k.name, k))

def Component.row (cells : List (String × String)) : Value :=
  .object (cells.map fun c => (c.1, .text c.2))

def Component.record : Record Component where
  name := "Component"
  blank := { kind := .custom }
  fields := [
    .required "kind" Kind.decoder (fun k => .text k.name) Component.kind
      (fun v c => { c with kind := v }),
    .optional "title" .text .text Component.title (fun v c => { c with title := v }),
    .optional "description" .text .text Component.description
      (fun v c => { c with description := v }),
    .optional "fields" .texts .texts Component.fields (fun v c => { c with fields := v }),
    .defaulted "actions" .texts .texts Component.actions (fun v c => { c with actions := v }),
    .optional "sample_items" .texts .texts Component.sampleItems
      (fun v c => { c with sampleItems := v }),
    .optional "dataset" (.list (.entries .text)) (fun rows => .list (rows.map Component.row))
      Component.dataset (fun v c => { c with dataset := v })]

def Screen.record : Record Screen where
  name := "Screen"
  blank := { name := "", goal := "" }
  fields := [
    .required "name" .text .text Screen.name (fun v s => { s with name := v }),
    .required "goal" .text .text Screen.goal (fun v s => { s with goal := v }),
    .defaulted "primary_actions" .texts .texts Screen.primaryActions
      (fun v s => { s with primaryActions := v }),
    .optional "layout_notes" .text .text Screen.layoutNotes
      (fun v s => { s with layoutNotes := v }),
    .defaulted "components" (.list Component.record.decoder)
      (fun cs => .list (cs.map Component.record.ordered)) Screen.components
      (fun v s => { s with components := v })]

namespace Spec

def record : Record Spec where
  name := "Specification"
  blank := { title := "", summary := "", keyScreens := [] }
  fields := [
    .required "title" .text .text Spec.title (fun v s => { s with title := v }),
    .required "summary" .text .text Spec.summary (fun v s => { s with summary := v }),
    .optional "goal" .text .text Spec.goal (fun v s => { s with goal := v }),
    .optional "success_metrics" .texts .texts Spec.successMetrics
      (fun v s => { s with successMetrics := v }),
    .required "key_screens" (.list Screen.record.decoder)
      (fun xs => .list (xs.map Screen.record.ordered)) Spec.keyScreens
      (fun v s => { s with keyScreens := v }),
    .optional "user_flow" .texts .texts Spec.userFlow (fun v s => { s with userFlow := v }),
    .optional "visual_style" .text .text Spec.visualStyle (fun v s => { s with visualStyle := v }),
    .optional "call_to_action" .text .text Spec.callToAction
      (fun v s => { s with callToAction := v }),
    .optional "metadata" .object .object Spec.metadata (fun v s => { s with metadata := v })]

def toValue (s : Spec) : Value := record.toValue s

def compact (s : Spec) : String := (record.ordered s).compact

def indented (s : Spec) : String := (record.ordered s).indented

def ofValue? (v : Value) : Option Spec := record.ofValue? v

def decode (text : String) : Except Fault Spec := record.decoder.decode text

def same (s t : Spec) : Bool := s.toValue.same t.toValue

end Spec

end Mockup
