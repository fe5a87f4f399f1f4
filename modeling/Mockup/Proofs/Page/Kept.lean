import Mockup.Proofs.Page.Drawers
import Mockup.Proofs.Page.Safe
import Mockup.Proofs.Page.Wiring

/-! The edits of the components of a page. All that a page keeps of a component can be told from the
clicks that edit this component, of all that was ever done to the page. -/

namespace Mockup.Page

open View Element

def Submission.labels (s : Submission) : List String := s.fields.map fun f => (text? f).getD ""

namespace Deed

variable (p : Page) (place : Place) (d : Deed)

def edits? : Option Place := (d.clicked? p).bind Found.edits?

def addition? : Option String :=
  (d.clicked? p).bind fun f =>
    if f.adds? = some place then (p.reply.map trimmed).filter (· ≠ "") else none

def submission? : Option (List Held) :=
  (d.clicked? p).bind fun f =>
    if f.saves? = some place then f.form.map fun e => values [e] else none

end Deed

def additions (place : Place) (ts : List (Page × Deed)) : List String :=
  ts.filterMap fun t => t.2.addition? t.1 place

def submissions (place : Place) (ts : List (Page × Deed)) : List (List Held) :=
  ts.filterMap fun t => t.2.submission? t.1 place

section Edits

variable {p : Page} {place : Place} {d : Deed} {f : Element.Found}

theorem edits_of_saves (h : f.saves? = some place) : f.edits? = some place := by
  rw [Found.edits?, h]
  rfl

end Edits

section Changes

variable (s : Spec) (p : Page) (place : Place)

/-- A reading of changes that sees nothing but the components. -/
structure Reads {β : Type} (g : Change → Option β) : Prop where
  enter : ∀ screen, g (.enter screen) = none
  note : ∀ message, g (.note message) = none
  dismiss : ∀ id, g (.dismiss id) = none

theorem reads_record : Reads (Change.record? place) := ⟨fun _ => rfl, fun _ => rfl, fun _ => rfl⟩

theorem Reads.reaction {β : Type} {g : Change → Option β} (hg : Reads g) {r : Reaction}
    (hr : ∀ q, r ≠ .addItem q) : (r.changes s p).filterMap g = [] := by
  refine List.filterMap_eq_nil_iff.mpr fun c hc => ?_
  cases r with
  | go screen =>
    rw [Reaction.changes] at hc
    split at hc
    · obtain rfl := List.mem_singleton.mp hc
      exact hg.enter screen
    · cases hc
  | act label =>
    rw [Reaction.changes, List.mem_append, Option.mem_toList, Option.map_eq_some_iff,
      List.mem_singleton] at hc
    obtain ⟨screen, -, rfl⟩ | rfl := hc
    · exact hg.enter screen
    · exact hg.note _
  | addItem q => exact absurd rfl (hr q)
  | dismiss id =>
    obtain rfl := List.mem_singleton.mp hc
    exact hg.dismiss id

theorem Reads.changes {β : Type} {g : Change → Option β} (hg : Reads g) (d : Deed) :
    (d.changes s p).filterMap g =
      ((d.clicked? p).map fun f => (clickChanges s p f).filterMap g).getD [] := by
  unfold Deed.changes
  split
  · rw [List.filterMap_map]
    exact List.filterMap_eq_nil_iff.mpr fun id _ => hg.dismiss id
  · split
    · exact List.filterMap_eq_nil_iff.mpr (List.forall_mem_singleton.mpr (hg.dismiss _))
    · rfl
  · cases Deed.clicked? p _ <;> rfl

theorem record_reaction (r : Reaction) :
    (r.changes s p).filterMap (Change.record? place) = [] := by
  by_cases hr : ∀ q, r ≠ .addItem q
  · exact (reads_record place).reaction s p hr
  · obtain ⟨q, rfl⟩ := not_forall_not.mp hr
    rw [Reaction.changes]
    split
    · rfl
    · split <;> rfl

theorem record_submission (sub : Submission) (vs : List Held) :
    (sub.changes vs).filterMap (Change.record? place) =
      (if some sub.place = some place then some (sub.labels.zip vs) else none).toList := by
  rw [Submission.changes, List.filterMap_cons]
  by_cases hsame : sub.place = place
  · have hrecord : Change.record? place (.save sub.place (sub.labels.zip vs)) =
        some (sub.labels.zip vs) := if_pos hsame
    rw [Submission.labels] at hrecord
    rw [hrecord, hsame, if_pos rfl]
    rfl
  · have hrecord : Change.record? place (.save sub.place (sub.labels.zip vs)) = none :=
      if_neg hsame
    rw [Submission.labels] at hrecord
    rw [hrecord, if_neg fun heq => hsame (Option.some.inj heq)]
    rfl

theorem record_clickChanges (f : Element.Found) :
    (clickChanges s p f).filterMap (Change.record? place) =
      (if f.saves? = some place then
        f.form.bind fun e => e.head.onSubmit.map fun sub => sub.labels.zip (values [e])
      else none).toList := by
  rw [clickChanges, Found.saves?]
  by_cases htype : f.element.head.type = "submit"
  · rw [if_pos htype, if_pos htype]
    cases f.form with
    | none => rfl
    | some form =>
      have hsaves : (some form).bind savesTo? = form.head.onSubmit.map Submission.place := rfl
      rw [hsaves, Option.bind_some]
      dsimp only
      cases form.head.onSubmit with
      | none => rfl
      | some sub => exact record_submission place sub (values [form])
  · rw [if_neg htype, if_neg htype]
    cases f.element.head.onClick with
    | none => rfl
    | some r => exact record_reaction s p place r

end Changes

theorem labels_submission (place : Place) (c : Component) :
    (Drawn.submission place c).labels = Drawn.fields c := by
  have htext (t : String) : (text? (.text t)).getD "" = t := by rw [text?]; rfl
  have hlabels : (Drawn.submission place c).labels =
      ((Drawn.fields c).map Json.Value.text).map fun v => (text? v).getD "" := rfl
  rw [hlabels, List.map_map]
  exact List.map_id'' htext _

namespace Current

variable {s : Spec} {p : Page} {place : Place} {d : Deed} {f : Element.Found}

theorem button_of_edits (h : Current s p) (hclick : d.clicked? p = some f)
    (hedits : f.edits? = some place) :
    f ∈ buttons none p.content ∧ ((∃ n, d = .push n) ∨ ∃ label, d = .event (.click label)) := by
  rcases clicked_cases h hclick with hbutton | ⟨x, n, rfl⟩ | ⟨n, -, rfl⟩
  · exact hbutton
  · cases hedits
  · cases hedits

theorem form_of_saves (h : Current s p) (hclick : d.clicked? p = some f)
    (hsaves : f.saves? = some place) :
    ∃ e c, f.form = some e ∧ (place, e) ∈ controls p.content ∧ s.componentAt? place = some c ∧
      c.kind = .form ∧ e.untyped = (Drawn.form p.state place c).untyped := by
  have hedits := edits_of_saves hsaves
  obtain ⟨hf, -⟩ := h.button_of_edits hclick hedits
  obtain ⟨e, hmem, hform⟩ := exists_control_of_edits (List.mem_of_mem_filter hf) (h.wired hf) hedits
  obtain ⟨-, c, g, hc, hcontrol, huntyped⟩ := h.of_mem_controls hmem
  refine ⟨e, c, hform hsaves, hmem, hc, ?_⟩
  have he : savesTo? e = some place := by
    rw [Found.saves?, hform hsaves] at hsaves
    split at hsaves
    · exact hsaves
    · cases hsaves
  rw [savesTo?, onSubmit_eq huntyped] at he
  -- of the controls only a form saves
  unfold Drawn.control? at hcontrol
  split at hcontrol
  · next hkind =>
    obtain rfl := Option.some.inj hcontrol
    exact ⟨hkind, huntyped⟩
  · obtain rfl := Option.some.inj hcontrol
    cases he
  · cases hcontrol

theorem onSubmit_of_untyped {e : Element} {st : State} {c : Component}
    (he : e.untyped = (Drawn.form st place c).untyped) :
    e.head.onSubmit = some (Drawn.submission place c) := onSubmit_eq he

theorem record_changes (h : Current s p) {c : Component} (hc : s.componentAt? place = some c)
    (d : Deed) :
    (d.changes s p).filterMap (Change.record? place) =
      ((d.submission? p place).map fun vs => (Drawn.fields c).zip vs).toList := by
  rw [(reads_record place).changes, Deed.submission?]
  cases hclick : d.clicked? p with
  | none => rfl
  | some f =>
    rw [Option.map_some, Option.getD_some, Option.bind_some, record_clickChanges]
    by_cases hsaves : f.saves? = some place
    · obtain ⟨e, c', hform, -, hc', -, he⟩ := h.form_of_saves hclick hsaves
      obtain rfl := Option.some.inj (hc.symm.trans hc')
      rw [if_pos hsaves, if_pos hsaves, hform, Option.bind_some, onSubmit_of_untyped he,
        Option.map_some, labels_submission]
      rfl
    · rw [if_neg hsaves, if_neg hsaves]
      rfl

end Current

namespace Session

def trace (s : Spec) (x : Session) : List Deed → List (Page × Deed)
  | [] => []
  | d :: ds => (x.page, d) :: trace s (x.perform s d) ds

variable {s : Spec} {x : Session}

theorem trace_append (ds ds' : List Deed) :
    x.trace s (ds ++ ds') = x.trace s ds ++ (x.performAll s ds).trace s ds' := by
  induction ds generalizing x with
  | nil => rfl
  | cons d ds ih => exact congrArg ((x.page, d) :: ·) ih

theorem log_performAll (ds : List Deed) :
    (x.performAll s ds).log = x.log ++ (x.trace s ds).flatMap fun t => t.2.changes s t.1 := by
  induction ds generalizing x with
  | nil => exact (List.append_nil _).symm
  | cons d ds ih =>
    have hcons : (x.trace s (d :: ds)).flatMap (fun t => t.2.changes s t.1) =
        d.changes s x.page ++ ((x.perform s d).trace s ds).flatMap fun t => t.2.changes s t.1 := rfl
    rw [hcons, ← List.append_assoc]
    exact ih (x := x.perform s d)

theorem Sound.current_of_mem_trace (h : x.Sound s) (hnames : ∀ y ∈ s.keyScreens, y.name ≠ "")
    (ds : List Deed) : ∀ t ∈ x.trace s ds, Current s t.1 := by
  induction ds generalizing x with
  | nil => nofun
  | cons d ds ih => exact List.forall_mem_cons.mpr ⟨h.current, ih (h.perform hnames d)⟩

end Session

def history (s : Spec) (ds : List Deed) : List (Page × Deed) :=
  (Session.after s []).trace s.complete ds

section History

variable {s : Spec} {place : Place}

theorem name_ne_empty (s : Spec) : ∀ y ∈ s.complete.keyScreens, y.name ≠ "" := fun _ hy =>
  Spec.ne_empty_of_not_blank (s.not_blank_name hy)

theorem state_after (s : Spec) (ds : List Deed) :
    (Session.after s ds).page.state =
      ({} : State).applyAll ((history s ds).flatMap fun t => t.2.changes s.complete t.1) := by
  have hlog := Session.log_performAll (s := s.complete) (x := Session.after s []) ds
  rw [(sound_after s ds).state]
  exact congrArg _ hlog

theorem forms_after {c : Component} (hc : s.complete.componentAt? place = some c)
    (ds : List Deed) :
    (Session.after s ds).page.state.forms.lookup place =
      (submissions place (history s ds)).getLast?.map fun vs =>
        ((Drawn.fields c).zip vs).reverse := by
  have hstart : ({} : State).forms.lookup place = none := rfl
  have hcurrent := (sound_after s []).current_of_mem_trace (name_ne_empty s) ds
  have hrecords : ((history s ds).flatMap fun t => t.2.changes s.complete t.1).filterMap
      (Change.record? place) =
        (submissions place (history s ds)).map fun vs => (Drawn.fields c).zip vs := by
    rw [List.filterMap_flatMap, submissions, List.map_filterMap, List.filterMap_eq_flatMap_toList]
    exact List.flatMap_congr fun t ht => (hcurrent t ht).record_changes hc t.2
  rw [state_after, State.forms_applyAll, hstart, Option.or_none, hrecords, List.getLast?_map,
    Option.map_map]
  rfl

theorem history_concat (s : Spec) (ds : List Deed) (d : Deed) :
    history s (ds ++ [d]) = history s ds ++ [((Session.after s ds).page, d)] :=
  Session.trace_append ds [d]

end History

theorem content_start (s : Spec) {x : Screen} (hx : s.complete.keyScreens[0]? = some x) :
    (Session.after s []).page.content = Drawn.page s.complete {} x := by
  have hview := view_toValue s.complete {} (x := x) hx
  have hcontent : (Session.after s []).page.content = (view s.complete.toValue {}).1 := rfl
  rw [hcontent, hview]

def errands : Spec where
  title := "Errands"
  summary := "All of them"
  keyScreens := [
    { name := "Home", goal := "Plan the day"
      components := [
        { kind := .list, sampleItems := some ["Coffee"] },
        { kind := .form, fields := some ["City"] }] }]

end Mockup.Page
