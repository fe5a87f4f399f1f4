import Mockup.Proofs.Page.Effect

/-! Sessions: the page of a bundle, and all that was changed in it. Every notification that is shown
has a timer, and none of them was dismissed. -/

namespace Mockup.Page

open View Element

structure Session where
  page : Page
  log : List Change := []

namespace Session

def perform (s : Spec) (x : Session) (d : Deed) : Session :=
  ⟨(x.page.perform d).1, x.log ++ d.changes s x.page⟩

def performAll (s : Spec) (x : Session) (ds : List Deed) : Session := ds.foldl (perform s) x

def after (s : Spec) (ds : List Deed) : Session := performAll s.complete ⟨(ofSpec s).1, []⟩ ds

end Session

/-- How the notifications that are shown, the timers and the dismissed notifications go together. -/
structure Pending (st : State) (timers gone : List Nat) : Prop where
  nodup : timers.Nodup
  le_clock : ∀ id ∈ timers, id ≤ st.clock
  gone_le_clock : ∀ id ∈ gone, id ≤ st.clock
  timed : ∀ n ∈ st.notifications, n.id ∈ timers
  kept : ∀ n ∈ st.notifications, n.id ∉ gone

namespace Pending

variable {st : State} {timers gone : List Nat}

theorem start : Pending {} [] [] := ⟨.nil, nofun, nofun, nofun, nofun⟩

theorem applyAll (h : Pending st timers gone) {left : List Nat} {cs : List Change}
    (hleft : left.Sublist timers) (hover : ∀ id ∈ timers, id ∈ left ∨ id ∈ dismissed cs)
    (hdismissed : ∀ id ∈ dismissed cs, id ∈ timers) :
    Pending (st.applyAll cs)
      (left ++ List.range' (st.clock + 1) ((st.applyAll cs).clock - st.clock))
      (gone ++ dismissed cs) := by
  have hclock := st.clock_le_applyAll cs
  have hnew {id : Nat} : id ∈ List.range' (st.clock + 1) ((st.applyAll cs).clock - st.clock) ↔
      st.clock < id ∧ id ≤ (st.applyAll cs).clock := by
    rw [List.mem_range'_1]
    omega
  refine ⟨?_, ?_, ?_, ?_, ?_⟩
  · -- the new timers have numbers above the clock, where there were none before
    refine List.nodup_append.mpr ⟨hleft.nodup h.nodup, List.nodup_range', ?_⟩
    intro id hid id' hid' heq
    have hle := h.le_clock id (hleft.subset hid)
    have hlt := (hnew.mp hid').1
    omega
  · intro id hid
    rcases List.mem_append.mp hid with hid | hid
    · exact (h.le_clock id (hleft.subset hid)).trans hclock
    · exact (hnew.mp hid).2
  · intro id hid
    rcases List.mem_append.mp hid with hid | hid
    · exact (h.gone_le_clock id hid).trans hclock
    · exact (h.le_clock id (hdismissed id hid)).trans hclock
  · intro n hn
    rcases State.mem_notifications_applyAll hn with ⟨hshown, hnot⟩ | hposted
    · have hid := (hover n.id (h.timed n hshown)).resolve_right hnot
      exact List.mem_append_left _ hid
    · exact List.mem_append_right _ (hnew.mpr hposted)
  · intro n hn hgone
    -- what is new is younger than all that was ever dismissed
    rcases State.mem_notifications_applyAll hn with ⟨hshown, hnot⟩ | ⟨hlt, -⟩
    · exact (List.mem_append.mp hgone).elim (h.kept n hshown) hnot
    · rcases List.mem_append.mp hgone with hid | hid
      · exact absurd (h.gone_le_clock _ hid) (Nat.not_le.mpr hlt)
      · exact absurd (h.le_clock _ (hdismissed _ hid)) (Nat.not_le.mpr hlt)

end Pending

structure Session.Sound (s : Spec) (x : Session) : Prop where
  current : Current s x.page
  state : x.page.state = ({} : State).applyAll x.log
  pending : Pending x.page.state x.page.timers (dismissed x.log)

section Dismissed

variable {s : Spec} {p : Page} {id : Nat}

theorem onClick_of_mem_dismissed {f : Element.Found}
    (h : id ∈ dismissed (clickChanges s p f)) : f.element.head.onClick = some (.dismiss id) := by
  rw [mem_dismissed_iff, clickChanges] at h
  split at h
  · split at h
    · cases h
    · split at h
      · cases h
      · simp [Submission.changes] at h
  · split at h
    · cases h
    · next reaction hclick =>
      rw [hclick]
      cases reaction with
      | go screen =>
        rw [Reaction.changes] at h
        split at h <;> simp at h
      | act label =>
        rw [Reaction.changes] at h
        simp at h
      | addItem place =>
        rw [Reaction.changes] at h
        split at h
        · cases h
        · split at h <;> simp at h
      | dismiss id' =>
        simp only [Reaction.changes, List.mem_singleton, Change.dismiss.injEq] at h
        rw [h]

theorem Wired.onClick_ne_dismiss {f : Element.Found} (hf : Wired f) :
    f.element.head.onClick ≠ some (.dismiss id) := by
  cases hf with
  | action | adding | submitting => nofun

theorem clicked_cases (h : Current s p) {d : Deed} {f : Element.Found}
    (hclick : d.clicked? p = some f) :
    (f ∈ buttons none p.content ∧ ((∃ n, d = .push n) ∨ ∃ label, d = .event (.click label))) ∨
      (∃ x n, f = ⟨Drawn.link p.state x n, none⟩) ∨
      ∃ n ∈ p.state.notifications, f = ⟨toast n, none⟩ := by
  cases d with
  | push n => exact .inl ⟨List.mem_of_getElem? hclick, .inl ⟨n, rfl⟩⟩
  | timer id => cases hclick
  | event e =>
    cases e with
    | click label =>
      have hfound := List.find?_some hclick
      rw [Bool.and_eq_true] at hfound
      have hmem := List.mem_of_find?_eq_some hclick
      exact .inl ⟨List.mem_filter.mpr ⟨hmem, hfound.1⟩, .inr ⟨label, rfl⟩⟩
    | nav n =>
      obtain ⟨e, he, rfl⟩ := Option.map_eq_some_iff.mp hclick
      have hlink := List.mem_of_getElem? he
      rw [h.withClass_link] at hlink
      obtain ⟨q, -, rfl⟩ := List.mem_map.mp hlink
      exact .inr (.inl ⟨q.1, q.2, rfl⟩)
    | toast n =>
      obtain ⟨e, he, rfl⟩ := Option.map_eq_some_iff.mp hclick
      have htoast := List.mem_of_getElem? he
      rw [h.withClass_toast] at htoast
      obtain ⟨note, hnote, rfl⟩ := List.mem_map.mp htoast
      exact .inr (.inr ⟨note, hnote, rfl⟩)
    | fill n text | prompt reply | timers => cases hclick

theorem onClick_of_clicked (h : Current s p) {d : Deed} {f : Element.Found}
    (hclick : d.clicked? p = some f) (hid : f.element.head.onClick = some (.dismiss id)) :
    ∃ n ∈ p.state.notifications, n.id = id := by
  rcases clicked_cases h hclick with ⟨hmem, -⟩ | ⟨x, n, rfl⟩ | ⟨n, hn, rfl⟩
  · exact absurd hid (h.wired hmem).onClick_ne_dismiss
  · cases hid
  · exact ⟨n, hn, Reaction.dismiss.inj (Option.some.inj hid)⟩

end Dismissed

namespace Deed

variable (p : Page) (d : Deed)

theorem timersLeft_sublist : (d.timersLeft p).Sublist p.timers := by
  unfold timersLeft
  split
  · exact List.nil_sublist _
  · exact List.erase_sublist
  · exact List.Sublist.refl _

theorem dismissed_timers (ids : List Nat) : dismissed (ids.map .dismiss) = ids := by
  rw [dismissed, List.filterMap_map]
  exact List.filterMap_some

/-- A timer that is over with a deed has dismissed its notification. -/
theorem left_or_dismissed (s : Spec) {id : Nat} (hid : id ∈ p.timers) :
    id ∈ d.timersLeft p ∨ id ∈ dismissed (d.changes s p) := by
  cases d with
  | push number => exact .inl hid
  | timer id' =>
    by_cases heq : id = id'
    · subst heq
      rw [changes, if_pos hid]
      exact .inr (List.mem_singleton.mpr rfl)
    · exact .inl ((List.mem_erase_of_ne heq).mpr hid)
  | event e =>
    cases e with
    | timers =>
      rw [changes, dismissed_timers]
      exact .inr hid
    | click label | nav number | toast number | fill number text | prompt reply => exact .inl hid

end Deed

namespace Session.Sound

variable {s : Spec} {x : Session}

theorem mem_timers (h : x.Sound s) (d : Deed) {id : Nat}
    (hid : id ∈ dismissed (d.changes s x.page)) : id ∈ x.page.timers := by
  have hclicked (hmem : id ∈ dismissed (((d.clicked? x.page).map (clickChanges s x.page)).getD [])) :
      id ∈ x.page.timers := by
    cases hclick : d.clicked? x.page with
    | none =>
      rw [hclick] at hmem
      cases hmem
    | some f =>
      rw [hclick] at hmem
      obtain ⟨n, hn, rfl⟩ :=
        onClick_of_clicked h.current hclick (onClick_of_mem_dismissed hmem)
      exact h.pending.timed n hn
  unfold Deed.changes at hid
  split at hid
  · rwa [Deed.dismissed_timers] at hid
  · split at hid
    · next hpending =>
      obtain rfl := List.mem_singleton.mp hid
      exact hpending
    · cases hid
  · exact hclicked hid

theorem perform (h : x.Sound s) (hnames : ∀ y ∈ s.keyScreens, y.name ≠ "") (d : Deed) :
    (x.perform s d).Sound s := by
  obtain ⟨-, hcurrent, hstate, htimers⟩ := perform_performs h.current hnames d
  have hlog : (x.page.perform d).1.state = ({} : State).applyAll (x.log ++ d.changes s x.page) := by
    rw [State.applyAll_append, ← h.state]
    exact hstate
  have hpending := h.pending.applyAll (d.timersLeft_sublist x.page)
    (fun id => d.left_or_dismissed x.page s) (fun id => h.mem_timers d)
  refine ⟨hcurrent, hlog, ?_⟩
  have hgone : dismissed (x.log ++ d.changes s x.page) =
      dismissed x.log ++ dismissed (d.changes s x.page) := List.filterMap_append
  rw [hstate] at htimers
  rw [Session.perform, hgone, hstate, htimers]
  exact hpending

theorem performAll (h : x.Sound s) (hnames : ∀ y ∈ s.keyScreens, y.name ≠ "") (ds : List Deed) :
    (x.performAll s ds).Sound s := by
  induction ds generalizing x with
  | nil => exact h
  | cons d ds ih => exact ih (h.perform hnames d)

end Session.Sound

end Mockup.Page
