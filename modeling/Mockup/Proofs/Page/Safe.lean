import Mathlib.Data.List.Nodup
import Mockup.Proofs.Page.Blocks
import Mockup.Proofs.Page.Session
import Mockup.Proofs.Spec.Valid

/-! The safety of the page of a bundle, whatever is done to it: it shows a screen that is there, and
at most three notifications, each until it is clicked on, runs out or is pushed out. -/

namespace Mockup.Page

open View Element

theorem sound_after (s : Spec) (ds : List Deed) : (Session.after s ds).Sound s.complete := by
  have hscreen : 0 < s.complete.keyScreens.length :=
    List.length_pos_iff.mpr s.keyScreens_complete_ne_nil
  obtain ⟨-, hcurrent, -, -⟩ := refresh_does (s := s.complete)
    (p := { data := s.complete.toValue }) rfl hscreen
  have hstart : (⟨(ofSpec s).1, []⟩ : Session).Sound s.complete := ⟨hcurrent, rfl, .start⟩
  exact hstart.performAll (fun y hy => Spec.ne_empty_of_not_blank (s.not_blank_name hy)) ds

theorem Wired.cases {f : Element.Found} (hf : Wired f) :
    (f.element.head.type = "submit" ∧ f.element.head.onClick = none ∧
      ∃ form sub, f.form = some form ∧ form.head.onSubmit = some sub) ∨
    (f.element.head.type = "button" ∧ ∃ place, f.element.head.onClick = some (.addItem place)) ∨
    (f.element.head.type = "button" ∧
      f.element.head.onClick = some (.act (.text f.element.content))) := by
  cases hf with
  | action className label form =>
    have hcontent := content_button className "button" label (some (.act (.text label)))
    exact .inr (.inr ⟨rfl, by rw [hcontent]; rfl⟩)
  | adding className place form => exact .inr (.inl ⟨rfl, place, rfl⟩)
  | submitting className label hsubmit => exact .inl ⟨rfl, rfl, _, _, rfl, hsubmit⟩

theorem Wired.text_of_act {f : Element.Found} (hf : Wired f) {v : Json.Value}
    (hact : f.element.head.onClick = some (.act v)) :
    f.element.head.type ≠ "submit" ∧ v = .text f.element.content := by
  rcases hf.cases with ⟨-, hnone, -⟩ | ⟨-, place, hadd⟩ | ⟨htype, hlabel⟩
  · cases hnone.symm.trans hact
  · cases hadd.symm.trans hact
  · rw [hlabel, Option.some.injEq, Reaction.act.injEq] at hact
    exact ⟨by rw [htype]; decide, hact.symm⟩

theorem acts_of_retyped {es fs : List Element} (h : Retyped es fs) :
    (buttons none es).filterMap (fun f => f.element.acts?) = (buttonsIn fs).filterMap acts? := by
  have huntyped (f : Element.Found) : f.untyped.element.acts? = f.element.acts? := by
    have hhead : f.untyped.element.head = f.element.head.untyped := head_untyped f.element
    rw [acts?, acts?, hhead, Head.onClick_untyped]
  have hmap (gs : List Element) : (buttons none gs).filterMap (fun f => f.element.acts?) =
      ((buttons none gs).map Found.untyped).filterMap fun f => f.element.acts? := by
    rw [List.filterMap_map]
    exact List.filterMap_congr fun f _ => (huntyped f).symm
  rw [hmap, h.map_untyped_buttons, ← hmap, ← map_element_buttons none, List.filterMap_map]
  rfl

section Removal

variable {s : Spec} {p : Page} {ns : List Notification} {n : Notification}

theorem filter_id_eq_eraseIdx (hids : (ns.map Notification.id).Nodup) {i : Nat}
    (h : ns[i]? = some n) : ns.filter (fun m => m.id ≠ n.id) = ns.eraseIdx i := by
  induction ns generalizing i with
  | nil => cases h
  | cons m ns ih =>
    obtain ⟨hm, hns⟩ := List.nodup_cons.mp hids
    cases i with
    | zero =>
      obtain rfl := Option.some.inj h
      have hothers : ∀ m' ∈ ns, decide (m'.id ≠ m.id) = true := fun m' hm' =>
        decide_eq_true fun heq => hm (List.mem_map.mpr ⟨m', hm', heq⟩)
      rw [List.filter_cons_of_neg (by simp), List.eraseIdx_cons_zero]
      exact List.filter_eq_self.mpr hothers
    | succ i =>
      have hne : m.id ≠ n.id := fun heq =>
        hm (List.mem_map.mpr ⟨n, List.mem_of_getElem? h, heq.symm⟩)
      have hkept : (m :: ns).filter (fun m => m.id ≠ n.id) = m :: ns.filter fun m => m.id ≠ n.id :=
        List.filter_cons_of_pos (decide_eq_true hne)
      rw [hkept, ih hns h, List.eraseIdx_cons_succ]

theorem State.dismiss_eq {st : State} (hids : (st.notifications.map Notification.id).Nodup)
    {i : Nat} (h : st.notifications[i]? = some n) :
    st.dismiss n.id = { st with notifications := st.notifications.eraseIdx i } := by
  rw [State.dismiss, filter_id_eq_eraseIdx hids h]

theorem timers_dismiss (p : Page) (id : Nat) : (p.dismiss id).1.timers = p.timers := by
  unfold dismiss
  split <;> rfl

theorem timers_fire (p : Page) (id : Nat) : (p.fire id).1.timers = p.timers.erase id := by
  unfold fire
  split
  · exact timers_dismiss _ id
  · next hid => exact (List.erase_of_not_mem hid).symm

theorem fire_of_not_has {id : Nat} (h : p.state.has id = false) :
    (p.fire id).1 = { p with timers := p.timers.erase id } := by
  unfold fire
  split
  · have hgone : ({ p with timers := p.timers.erase id } : Page).state.has id = false := h
    rw [dismiss, hgone]
    rfl
  · next hid => rw [List.erase_of_not_mem hid]

end Removal

namespace Session.Sound

variable {s : Spec} {x : Session}

theorem shows (h : x.Sound s) : x.page.state.Shows x.log := by
  have hstart : ({} : State).Shows [] := ⟨rfl, Nat.zero_le _, List.Sublist.refl _⟩
  have hshows := hstart.applyAll x.log
  rwa [List.nil_append, ← h.state] at hshows

theorem nodup_ids (h : x.Sound s) : (x.page.state.notifications.map Notification.id).Nodup := by
  have hsub := h.shows.latestFirst.map Notification.id
  refine hsub.nodup ?_
  rw [List.map_reverse, List.nodup_reverse, map_id_posted]
  exact List.nodup_range'

theorem notifications_eq_nil (h : x.Sound s) (htimers : x.page.timers = []) :
    x.page.state.notifications = [] := by
  refine List.eq_nil_iff_forall_not_mem.mpr fun n hn => ?_
  have htimed := h.pending.timed n hn
  rw [htimers] at htimed
  cases htimed

theorem timers_of_perm {order : List Nat} (horder : order.Perm x.page.timers) :
    (x.performAll s (order.map .timer)).page.timers = [] := by
  induction order generalizing x with
  | nil => exact List.nil_perm.mp horder
  | cons id order ih =>
    obtain ⟨-, hrest⟩ := List.cons_perm_iff_perm_erase.mp horder
    refine ih (x := x.perform s (.timer id)) ?_
    have hfired : (x.perform s (.timer id)).page.timers = x.page.timers.erase id :=
      timers_fire x.page id
    rwa [hfired]

theorem notifications_of_timers (h : x.Sound s) :
    (x.page.step .timers).1.state.notifications = [] := by
  obtain ⟨-, -, hstate, -⟩ := timers_performs (s := s) (p := x.page)
    ⟨h.current.data, h.current.screen, h.current.content⟩
  have hstep : (x.page.step .timers).1.state =
      x.page.state.applyAll (x.page.timers.map .dismiss) := hstate
  have hclock : (x.page.state.applyAll (x.page.timers.map .dismiss)).clock =
      x.page.state.clock := by
    have hposted : (x.page.timers.map Change.dismiss).filterMap Change.message? = [] := by
      rw [List.filterMap_map]
      exact List.filterMap_eq_nil_iff.mpr fun id _ => rfl
    rw [State.clock_applyAll, length_posted, hposted]
    rfl
  rw [hstep]
  refine List.eq_nil_iff_forall_not_mem.mpr fun n hn => ?_
  rcases State.mem_notifications_applyAll hn with ⟨hshown, hkept⟩ | ⟨hnew, hold⟩
  · rw [Deed.dismissed_timers] at hkept
    exact hkept (h.pending.timed n hshown)
  · omega

theorem toast_state (h : x.Sound s) {i : Nat} {n : Notification}
    (hn : x.page.state.notifications[i]? = some n) :
    (x.page.step (.toast i)).1.state =
      { x.page.state with notifications := x.page.state.notifications.eraseIdx i } := by
  have hclick : (withClass "notification" x.page.content)[i]? = some (toast n) := by
    rw [h.current.withClass_toast, List.getElem?_map, hn]
    rfl
  have hstep : (x.page.step (.toast i)).1 = (x.page.dismiss n.id).1 := by
    rw [step, hclick]
    rfl
  obtain ⟨-, -, hstate, -⟩ := dismiss_does h.current n.id
  rw [hstep, hstate]
  exact State.dismiss_eq h.nodup_ids hn

theorem fire_state (h : x.Sound s) {i : Nat} {n : Notification}
    (hn : x.page.state.notifications[i]? = some n) :
    (x.page.fire n.id).1.state =
      { x.page.state with notifications := x.page.state.notifications.eraseIdx i } := by
  have hleft : Current s { x.page with timers := x.page.timers.erase n.id } :=
    ⟨h.current.data, h.current.screen, h.current.content⟩
  obtain ⟨-, -, hstate, -⟩ := dismiss_does hleft n.id
  rw [fire, if_pos (h.pending.timed n (List.mem_of_getElem? hn)), hstate]
  exact State.dismiss_eq h.nodup_ids hn

theorem toasts (h : x.Sound s) :
    (withClass "notification" x.page.content).map Element.content =
      x.page.state.notifications.map Notification.message := by
  rw [h.current.withClass_toast, List.map_map]
  refine List.map_congr_left fun n _ => ?_
  rw [Function.comp_apply, toast, Element.content, Element.contents, String.append_empty]

theorem act_screen (h : x.Sound s) (hnames : ∀ y ∈ s.keyScreens, y.name ≠ "")
    {f : Element.Found} (hf : f ∈ buttons none x.page.content) {v : Json.Value}
    (hact : f.element.head.onClick = some (.act v)) :
    v = .text f.element.content ∧ (x.page.push f).1.state.screen =
      (namedScreen? s f.element.content).getD x.page.state.screen := by
  obtain ⟨htype, rfl⟩ := (h.current.wired hf).text_of_act hact
  obtain ⟨-, -, hstate, -⟩ := push_performs h.current hnames hf
  rw [clickChanges_of_onClick s x.page htype hact, changes_act] at hstate
  refine ⟨rfl, ?_⟩
  rw [hstate]
  cases namedScreen? s f.element.content <;> rfl

theorem exists_actions (h : x.Sound s) :
    ∃ y, s.keyScreens[x.page.state.screen]? = some y ∧
      (buttons none x.page.content).filterMap (fun f => f.element.acts?) =
        (y.primaryActions ++ y.components.flatMap fun c =>
          if c.kind = .form then c.actions.drop 1 else c.actions).map .text := by
  obtain ⟨y, hy, hcontent⟩ := h.current.exists_drawn
  have hrow (c : Component) :
      Drawn.rowActions c = if c.kind = .form then c.actions.drop 1 else c.actions := by
    rw [Drawn.rowActions]
    cases c.kind <;> rfl
  refine ⟨y, hy, ?_⟩
  rw [acts_of_retyped hcontent, acts_page, funext hrow]

end Session.Sound

/-- What can be said of the page of a bundle at any time, of all that can happen to it next, and of
the end of its timers. -/
structure Safe (s : Spec) (x : Session) : Prop where
  screen : x.page.state.screen < s.complete.keyScreens.length
  /-- The view of the state is whole and is shown, but for what was typed since. -/
  content : (view x.page.data x.page.state).2 = true ∧
    ∃ typed, x.page.content = typeIn typed (view x.page.data x.page.state).1
  toasts : (withClass "notification" x.page.content).map Element.content =
    x.page.state.notifications.map Notification.message
  logged : x.page.state = ({} : State).applyAll x.log
  few : x.page.state.notifications.length ≤ 3
  latestFirst : x.page.state.notifications.Sublist (posted x.log).reverse
  kept : ∀ n ∈ x.page.state.notifications, n.id ∉ dismissed x.log
  whole : ∀ d, (x.page.perform d).2 ≠ .error .stopped
  clicked : ∀ i < x.page.state.notifications.length, (x.page.step (.toast i)).1.state =
    { x.page.state with notifications := x.page.state.notifications.eraseIdx i }
  timed : ∀ i n, x.page.state.notifications[i]? = some n → n.id ∈ x.page.timers ∧
    (x.page.perform (.timer n.id)).1.state =
      { x.page.state with notifications := x.page.state.notifications.eraseIdx i }
  /-- Nothing happens at the end of a timer whose notification is gone, or if it is dismissed
  again. -/
  gone : ∀ id, (∀ n ∈ x.page.state.notifications, n.id ≠ id) →
    (x.page.perform (.timer id)).1 = { x.page with timers := x.page.timers.erase id } ∧
      (x.page.dismiss id).1 = x.page
  /-- There is no notification without a timer, and so none after all timers have ended. -/
  settled : (x.page.timers = [] → x.page.state.notifications = []) ∧
    (∀ order : List Nat, order.Perm x.page.timers →
      (x.performAll s.complete (order.map .timer)).page.state.notifications = []) ∧
    (x.page.step .timers).1.state.notifications = []
  /-- A button outside the navigation submits the form it is in, adds to a list, or acts on its
  label. -/
  wired : ∀ f ∈ buttons none x.page.content,
    (f.element.head.type = "submit" ∧ f.element.head.onClick = none ∧
      ∃ form sub, f.form = some form ∧ form.head.onSubmit = some sub) ∨
    (f.element.head.type = "button" ∧ ∃ place, f.element.head.onClick = some (.addItem place)) ∨
    (f.element.head.type = "button" ∧
      f.element.head.onClick = some (.act (.text f.element.content)))
  /-- Every action of the open screen has its button, but for those that submit a form. -/
  actions : ∃ y, s.complete.keyScreens[x.page.state.screen]? = some y ∧
    (buttons none x.page.content).filterMap (fun f => f.element.acts?) =
      (y.primaryActions ++ y.components.flatMap fun c =>
        if c.kind = .form then c.actions.drop 1 else c.actions).map .text
  /-- An action opens the first screen with its name, if there is one. -/
  action : ∀ f ∈ buttons none x.page.content, ∀ v, f.element.head.onClick = some (.act v) →
    v = .text f.element.content ∧ (x.page.push f).1.state.screen =
      (namedScreen? s.complete f.element.content).getD x.page.state.screen

/-- The page of a bundle is safe after any deeds. -/
theorem safe_after (s : Spec) (ds : List Deed) : Safe s (Session.after s ds) := by
  have h := sound_after s ds
  have hnames : ∀ y ∈ s.complete.keyScreens, y.name ≠ "" := fun y hy =>
    Spec.ne_empty_of_not_blank (s.not_blank_name hy)
  generalize Session.after s ds = x at h
  have hwhole : (view x.page.data x.page.state).2 = true := by
    rw [h.current.data, view_toValue _ _ (List.getElem?_eq_getElem h.current.screen)]
  refine
    { screen := h.current.screen, content := ⟨hwhole, h.current.content⟩, toasts := h.toasts
      logged := h.state, few := h.shows.few, latestFirst := h.shows.latestFirst
      kept := h.pending.kept
      whole := fun d => (perform_performs h.current hnames d).1
      clicked := fun i hi => h.toast_state (List.getElem?_eq_getElem hi)
      timed := fun i n hn => ⟨h.pending.timed n (List.mem_of_getElem? hn), h.fire_state hn⟩
      gone := fun id hid => ?_
      settled := ⟨h.notifications_eq_nil, fun order horder => ?_, h.notifications_of_timers⟩
      wired := fun f hf => (h.current.wired hf).cases
      actions := h.exists_actions
      action := fun f hf v hact => h.act_screen hnames hf hact }
  · have hnot : x.page.state.has id = false :=
      List.any_eq_false.mpr fun n hn => by rw [decide_eq_true_eq]; exact hid n hn
    refine ⟨fire_of_not_has hnot, ?_⟩
    rw [Page.dismiss, hnot]
    rfl
  · have hsound := h.performAll hnames (order.map .timer)
    exact hsound.notifications_eq_nil (Session.Sound.timers_of_perm horder)

end Mockup.Page
