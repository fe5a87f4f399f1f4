import Mockup.Proofs.Payload.Readable

/-! What the context has a say in. Two contexts make the same of a payload wherever the payload says
something itself; a context fills gaps and adds the items of its notes. -/

namespace Mockup.Payload

open Json Text

def IsFilledText (v : Value) : Prop := ∃ s, v = .text s ∧ isBlankText s = false

def HasTitle (m : Members) : Prop := ∃ v, m.get? "title" = some v ∧ IsFilledText v

def HasSummary (m : Members) : Prop :=
  ∃ v, m.get? "summary" = some v ∧
    (IsFilledText v ∨ ∃ lines, v = .list lines ∧ ∃ line ∈ lines, IsFilledText line)

def HasGoal (m : Members) : Prop :=
  ∃ v, m.get? "goal" = some v ∧ (IsFilledText v ∨ (∃ n, v = .number n) ∨ ∃ b, v = .bool b)

def HasScreen (m : Members) : Prop :=
  ∃ source ∈ screenSources m, ∃ v ∈ source, IsFilledText v ∨ v.isObject = true

/-- What the specifications of one payload have in common, whatever filled its gaps. -/
structure Agree (m : Members) (s t : Spec) : Prop where
  title : HasTitle m → s.title = t.title
  summary : HasSummary m → s.summary = t.summary
  goal : HasGoal m → s.goal = t.goal
  successMetrics : s.successMetrics = t.successMetrics
  keyScreens : HasScreen m → s.keyScreens = t.keyScreens
  userFlow : s.userFlow = t.userFlow
  visualStyle : s.visualStyle = t.visualStyle
  callToAction : s.callToAction = t.callToAction
  metadata : Members.erase (s.metadata.getD []) "assistant_metrics" =
    Members.erase (t.metadata.getD []) "assistant_metrics"

variable {m : Members} {v : Value}

theorem IsFilledText.stringText? (h : IsFilledText v) : ∃ t, stringText? v = some t := by
  obtain ⟨s, rfl, hs⟩ := h
  exact exists_filled? hs

theorem IsFilledText.scalarText? (h : IsFilledText v) : ∃ t, scalarText? v = some t := by
  obtain ⟨s, rfl, hs⟩ := h
  exact exists_filled? hs

theorem HasTitle.title_eq (h : HasTitle m) (c d : Context) : title c m = title d m := by
  obtain ⟨v, hv, hfilled⟩ := h
  obtain ⟨t, ht⟩ := hfilled.stringText?
  simp only [title, hv, Option.bind_some, ht, Option.some_or]

theorem HasSummary.summary? (h : HasSummary m) : ∃ t, summary? m = some t := by
  obtain ⟨v, hv, htext | ⟨lines, rfl, line, hline, htext⟩⟩ := h
  · obtain ⟨s, rfl, hs⟩ := htext
    obtain ⟨t, ht⟩ := exists_filled? hs
    exact ⟨t, by rw [Payload.summary?, hv]; exact ht⟩
  · obtain ⟨s, hs⟩ := htext.stringText?
    have hmem : s ∈ lines.filterMap Payload.stringText? := List.mem_filterMap.mpr ⟨line, hline, hs⟩
    have hblank : isBlankText ("\n".intercalate (lines.filterMap Payload.stringText?)) = false :=
      not_blank_intercalate hmem (filled_of_stringText? hs).not_blank
    obtain ⟨t, ht⟩ := exists_filled? hblank
    exact ⟨t, by rw [Payload.summary?, hv]; exact ht⟩

theorem HasGoal.explicitGoal? (h : HasGoal m) : ∃ t, explicitGoal? m = some t := by
  obtain ⟨v, hv, htext⟩ := h
  rw [Payload.explicitGoal?, hv]
  rcases htext with htext | ⟨n, rfl⟩ | ⟨b, rfl⟩
  · exact htext.scalarText?
  · exact ⟨_, rfl⟩
  · exact ⟨_, rfl⟩

theorem exists_screen? (h : IsFilledText v ∨ v.isObject = true) (place : Nat) :
    ∃ x, screen? place v = some x := by
  rcases h with htext | hobject
  · obtain ⟨s, rfl, hs⟩ := htext
    obtain ⟨t, ht⟩ := exists_filled? hs
    exact ⟨_, by rw [screen?, ht]; rfl⟩
  · cases v with
    | object m => exact ⟨_, rfl⟩
    | _ => cases hobject

theorem screensFrom_ne_nil {source : List Value} (hv : v ∈ source)
    (h : IsFilledText v ∨ v.isObject = true) (place : Nat) : screensFrom place source ≠ [] := by
  induction source generalizing place with
  | nil => cases hv
  | cons w source ih =>
    rw [screensFrom]
    cases hw : screen? place w with
    | some x => exact List.cons_ne_nil _ _
    | none =>
      rcases List.mem_cons.mp hv with rfl | hv
      · obtain ⟨x, hx⟩ := exists_screen? h place
        rw [hx] at hw
        cases hw
      · exact ih hv (place + 1)

theorem HasScreen.screens? (h : HasScreen m) : ∃ xs, screens? m = some xs := by
  obtain ⟨source, hsource, v, hv, hscreen⟩ := h
  rw [← Option.isSome_iff_exists, Payload.screens?, List.findSome?_isSome_iff]
  refine ⟨source, hsource, ?_⟩
  obtain ⟨x, xs, hxs⟩ := List.exists_cons_of_ne_nil (screensFrom_ne_nil hv hscreen 0)
  rw [hxs]
  rfl

theorem erase_metadata? (ctx : Context) (m : Members) :
    Members.erase ((metadata? ctx m).getD []) "assistant_metrics" =
      Members.erase (((m.get? "metadata").bind Value.object?).getD []) "assistant_metrics" := by
  rw [metadata?]
  split
  · rfl
  · exact Members.erase_set ..

theorem agree_specOf (c d : Context) (m : Members) : Agree m (specOf c m) (specOf d m) where
  title h := h.title_eq c d
  summary h := by
    obtain ⟨t, ht⟩ := h.summary?
    simp only [specOf, summary, ht, Option.getD_some]
  goal h := by
    obtain ⟨t, ht⟩ := h.explicitGoal?
    simp only [specOf, goal?, ht, Option.some_or]
  successMetrics := rfl
  keyScreens h := by
    obtain ⟨xs, hxs⟩ := h.screens?
    simp only [specOf, keyScreens, hxs, Option.getD_some]
  userFlow := rfl
  visualStyle := rfl
  callToAction := rfl
  metadata := (erase_metadata? c m).trans (erase_metadata? d m).symm

/-- Two contexts make specifications of an object payload that agree in all that the payload says,
once its envelope is taken off and its keys are renamed. -/
theorem context_fills_gaps {raw : Value} {m : Members} (h : root raw = .ok m) (c d : Context) :
    ∃ s t, normalize c raw = .ok s ∧ normalize d raw = .ok t ∧
      Agree (rename .spec (unwrap m)) s t :=
  ⟨_, _, normalize_ok_iff.mpr ⟨m, h, rfl⟩, normalize_ok_iff.mpr ⟨m, h, rfl⟩, agree_specOf c d _⟩

theorem context_fills_gaps_enveloped :
    let page : Members :=
      [("goal", .bool true), ("mainPage", .object [("name", .text "Home")]),
        ("summary", .list [.text " ", .text "Fast"]), ("title", .text " Shop ")]
    let raw : Members := [("prototypeSpec", .object page)]
    let m := rename .spec (unwrap raw)
    let c : Context :=
      { title := "Other", summary := "Slow", goal := some "Sell", focus := "Cart",
        notes := some "- Quick" }
    root (.object raw) = .ok raw ∧ HasTitle m ∧ HasSummary m ∧ HasGoal m ∧ HasScreen m ∧
      ∃ s t, normalize c (.object raw) = .ok s ∧ normalize {} (.object raw) = .ok t ∧
        Agree m s t := by
  refine ⟨rfl, ⟨.text " Shop ", rfl, _, rfl, by decide⟩, ?_, ⟨.bool true, rfl, .inr (.inr ⟨_, rfl⟩)⟩,
    ?_, context_fills_gaps rfl _ _⟩
  · exact ⟨_, rfl, .inr ⟨_, rfl, .text "Fast", .tail _ (.head _), _, rfl, by decide⟩⟩
  · -- the fifth place is the main page, whose key is an alias
    refine ⟨[.object [("name", .text "Home")]], ?_, _, .head _, .inr rfl⟩
    exact .tail _ (.tail _ (.tail _ (.tail _ (.head _))))

end Mockup.Payload
