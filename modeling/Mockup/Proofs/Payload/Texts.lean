import Mockup.Proofs.Payload.Readable
import Mockup.Proofs.Text.Ends

/-! The texts of a normalized payload. Whatever a text was read from, a string, a number, a label,
written JSON or an item of the notes, and whatever was made up in its place, it says something and
has no white space around it. That stays so where a text is cut to a limit, and the same limit cuts
it no further. -/

namespace Mockup

open Text

def Component.texts (c : Component) : List String :=
  c.title.toList ++ c.description.toList ++ c.fields.getD [] ++ c.actions ++ c.sampleItems.getD []

def Screen.texts (s : Screen) : List String :=
  s.name :: s.goal :: s.primaryActions ++ s.layoutNotes.toList ++
    s.components.flatMap Component.texts

def Spec.texts (s : Spec) : List String :=
  s.title :: s.goal.toList ++ s.visualStyle.toList ++ s.callToAction.toList ++
    s.successMetrics.getD [] ++ s.userFlow.getD [] ++ s.keyScreens.flatMap Screen.texts

structure Text.Unpadded (t : String) : Prop where
  start : ∀ c, t.toList.head? = some c → isBlank c = false
  last : ∀ c, t.toList.getLast? = some c → isBlank c = false

theorem Text.unpadded_iff {t : String} : Unpadded t ↔ trimmed t = t := by
  have htrim : trimmed t = t ↔ strip isBlank t.toList = t.toList := by
    rw [trimmed, trim, ← String.toList_inj, String.toList_ofList]
  rw [htrim, strip_eq_self_iff]
  exact ⟨fun h => ⟨h.start, h.last⟩, fun h => ⟨h.1, h.2⟩⟩

theorem Component.Clean.filled {c : Component} (h : c.Clean) : ∀ t ∈ c.texts, Filled t := by
  intro t ht
  simp only [texts, List.mem_append, Option.mem_toList] at ht
  rcases ht with (((ht | ht) | ht) | ht) | ht
  · exact h.title t ht
  · exact h.description t ht
  · exact Payload.filled_getD_nil h.fields t ht
  · exact h.actions t ht
  · exact Payload.filled_getD_nil h.sampleItems t ht

theorem Screen.Clean.filled {x : Screen} (h : x.Clean) : ∀ t ∈ x.texts, Filled t := by
  intro t ht
  simp only [texts, List.mem_append, List.mem_cons, Option.mem_toList, List.mem_flatMap] at ht
  rcases ht with ((rfl | rfl | ht) | ht) | ⟨c, hc, ht⟩
  · exact h.name
  · exact h.goal
  · exact h.primaryActions t ht
  · exact h.layoutNotes t ht
  · exact (h.components c hc).filled t ht

theorem Spec.Clean.filled {s : Spec} (h : s.Clean) : ∀ t ∈ s.texts, Filled t := by
  intro t ht
  simp only [texts, List.mem_append, List.mem_cons, Option.mem_toList, List.mem_flatMap] at ht
  rcases ht with (((((rfl | ht) | ht) | ht) | ht) | ht) | ⟨x, hx, ht⟩
  · exact h.title
  · exact h.goal t ht
  · exact h.visualStyle t ht
  · exact h.callToAction t ht
  · exact Payload.filled_getD_nil h.successMetrics t ht
  · exact Payload.filled_getD_nil h.userFlow t ht
  · exact (h.keyScreens x hx).filled t ht

namespace Payload

open Json

variable {ctx : Context} {raw : Value} {s : Spec}

/-- Every text of a normalized payload has something in it and no white space around it, and the
summary has no white space around it. -/
theorem texts_unpadded (h : normalize ctx raw = .ok s) :
    (∀ t ∈ s.texts, t ≠ "" ∧ Unpadded t) ∧ Unpadded s.summary := by
  have hclean := clean_of_normalize h
  refine ⟨fun t ht => ?_, unpadded_iff.mpr hclean.summary⟩
  have hfilled := hclean.filled t ht
  exact ⟨hfilled.ne_empty, unpadded_iff.mpr hfilled.trimmed_eq⟩

theorem texts_unpadded_shop :
    let items : Value := .list [.bool true, .object [("label", .text "\u3000x ")], .list [.text " "]]
    let list : Value := .object [("items", items), ("type", .text "list")]
    let screen : Value :=
      .object [("name", .text " Home\n"), ("sections", .list [.text "\u0085Hi", list])]
    let raw : Value :=
      .object [("keyScreens", .list [screen]), ("success_metrics", .list [.text " "]),
        ("summary", .list [.text " Fast", .text "\t", .text "cheap "]), ("title", .text "\u00a0")]
    let ctx : Context := { title := " Shop ", goal := some "Sell " }
    ∃ s, normalize ctx raw = .ok s ∧
      s.texts = ["Shop", "Sell", "Home", Placeholder.goal, "Hi", "Hi", "true", "x", "[\" \"]"] ∧
      s.summary = "Fast\ncheap" ∧ (∀ t ∈ s.texts, t ≠ "" ∧ Unpadded t) ∧ Unpadded s.summary := by
  intro items list screen raw ctx
  have hs : normalize ctx raw = .ok (specOf ctx (rename .spec (unwrap _))) := rfl
  exact ⟨_, hs, by decide +kernel, rfl, texts_unpadded hs⟩

section Shortened

variable {limit : Nat} {s t : String} {front : List Char}

theorem shorten_trimmed (limit : Nat) (s : String) :
    shorten limit (trimmed s) = shorten limit s := by
  have htrim : trim (trimmed s).toList = trim s.toList := by
    rw [trimmed, String.toList_ofList]
    exact strip_strip isBlank s.toList
  rw [shorten, shorten, htrim]

theorem shorten_of_le (h : (trimmed s).length ≤ limit) : shorten limit s = trimmed s := by
  rw [trimmed, String.length_ofList] at h
  exact if_pos h

theorem shorten_of_lt (h : limit < (trimmed s).length) :
    shorten limit s = String.ofList (dropEnd isBlank ((trimmed s).toList.take limit)) ++ "…" := by
  rw [trimmed, String.length_ofList] at h
  rw [shorten, if_neg (Nat.not_le.mpr h), trimmed, String.toList_ofList, String.ofList_append]

theorem filled_shorten_of_not_blank (hlimit : 0 < limit) (h : isBlankText s = false) :
    Filled (shorten limit s) :=
  shorten_trimmed limit s ▸ filled_shorten hlimit (filled_trimmed h)

theorem not_blank_of_lt (h : limit < (trimmed s).length) : isBlankText s = false := by
  rw [← Bool.not_eq_true]
  intro hblank
  rw [trimmed_of_blank hblank] at h
  exact Nat.not_lt_zero limit h

theorem shorten_of_blank (h : isBlankText s = true) : shorten limit s = "" := by
  have hnil := trimmed_of_blank h
  rw [shorten_of_le (by rw [hnil]; exact Nat.zero_le limit), hnil]

theorem length_shorten_le (limit : Nat) (s : String) : (shorten limit s).length ≤ limit + 1 := by
  rcases Nat.lt_or_ge limit (trimmed s).length with hlt | hle
  · rw [shorten_of_lt hlt, String.length_append, String.length_ofList]
    exact Nat.succ_le_succ (longestFront_dropEnd isBlank limit _).length_le
  · rw [shorten_of_le hle]
    exact hle.trans (Nat.le_succ limit)

theorem shorten_append_ellipsis (hfilled : Filled (String.ofList front ++ "…"))
    (hlength : front.length ≤ limit) (hlast : ∀ c ∈ front.getLast?, isBlank c = false) :
    shorten limit (String.ofList front ++ "…") = String.ofList front ++ "…" := by
  have htrim := hfilled.trimmed_eq
  have htext : (String.ofList front ++ "…").length = front.length + 1 := by
    rw [String.length_append, String.length_ofList]
    rfl
  rcases Nat.lt_or_ge front.length limit with hlt | hge
  · have hle : (trimmed (String.ofList front ++ "…")).length ≤ limit := by
      rw [htrim, htext]
      exact hlt
    rw [shorten_of_le hle, htrim]
  · obtain rfl := Nat.le_antisymm hlength hge
    have hlt : front.length < (trimmed (String.ofList front ++ "…")).length := by
      rw [htrim, htext]
      exact Nat.lt_succ_self _
    rw [shorten_of_lt hlt, htrim, String.toList_append, String.toList_ofList,
      List.take_left' rfl, dropEnd_eq_self_iff.mpr hlast]

theorem shorten_shorten (hlimit : 0 < limit) (s : String) :
    shorten limit (shorten limit s) = shorten limit s := by
  rcases Nat.lt_or_ge limit (trimmed s).length with hlt | hle
  · have hfilled := filled_shorten_of_not_blank hlimit (not_blank_of_lt hlt)
    have hfront := longestFront_dropEnd isBlank limit (trimmed s).toList
    rw [shorten_of_lt hlt] at hfilled ⊢
    exact shorten_append_ellipsis hfilled hfront.length_le hfront.last
  · rw [shorten_of_le hle, shorten_trimmed, shorten_of_le hle]

/-- A text is trimmed and, if it has more characters than the limit, cut to its longest front, with
an ellipsis. What comes of it is empty exactly if the text was blank, and cutting it again changes
nothing. -/
theorem shorten_tells_front (hlimit : 1 ≤ limit) (s : String) :
    ((trimmed s).length ≤ limit → shorten limit s = trimmed s) ∧
      (limit < (trimmed s).length →
        ∃ front, front ≠ [] ∧ LongestFront isBlank limit (trimmed s).toList front ∧
          shorten limit s = String.ofList front ++ "…") ∧
      Unpadded (shorten limit s) ∧ (shorten limit s).length ≤ limit + 1 ∧
      (shorten limit s ≠ "" ↔ isBlankText s = false) ∧
      shorten limit (shorten limit s) = shorten limit s := by
  refine ⟨shorten_of_le, fun hlt => ?_, ?_, length_shorten_le limit s, ?_,
    shorten_shorten hlimit s⟩
  · have hfront := longestFront_dropEnd isBlank limit (trimmed s).toList
    obtain ⟨c, hfirst, hc⟩ := (filled_trimmed (not_blank_of_lt hlt)).starts
    exact ⟨_, hfront.ne_nil hlimit hfirst hc, hfront, shorten_of_lt hlt⟩
  · rw [unpadded_iff]
    cases hblank : isBlankText s with
    | true => rw [shorten_of_blank hblank]; rfl
    | false => exact (filled_shorten_of_not_blank hlimit hblank).trimmed_eq
  · cases hblank : isBlankText s with
    | true => exact iff_of_false (not_not_intro (shorten_of_blank hblank)) Bool.noConfusion
    | false => exact iff_of_true (filled_shorten_of_not_blank hlimit hblank).ne_empty rfl

theorem shorten_tells_front_plan :
    let s := " \u3000Plan  your week\n"
    1 ≤ 4 ∧ 4 < (trimmed s).length ∧ shorten 4 s = "Plan…" ∧
      (∃ front, front ≠ [] ∧ LongestFront isBlank 4 (trimmed s).toList front ∧
        shorten 4 s = String.ofList front ++ "…") ∧
      Unpadded (shorten 4 s) ∧ (shorten 4 s).length ≤ 5 ∧ shorten 4 (shorten 4 s) = shorten 4 s := by
  intro s
  have hlimit : 1 ≤ 4 := by decide
  have hlong : 4 < (trimmed s).length := by decide
  obtain ⟨-, hcut, hunpadded, hlength, -, hagain⟩ := shorten_tells_front hlimit s
  exact ⟨hlimit, hlong, by decide, hcut hlong, hunpadded, hlength, hagain⟩

example : shorten 6 " \u3000Plan  your week\n" = "Plan…" := by decide

end Shortened

end Payload

end Mockup
