import Mockup.Proofs.Page.Current
import Mockup.Proofs.Spec.Complete

/-! The effect of everything that can happen to a page: its changes, one after the other, and a
timer for each notification that they post. -/

namespace Mockup.Page

open Json View Element

/-- A page after changes, which shows its state again. -/
structure After (s : Spec) (p : Page) (cs : List Change) (q : Page) : Prop where
  current : Current s q
  state : q.state = p.state.applyAll cs
  timers : q.timers = p.timers ++ List.range' (p.state.clock + 1) (q.state.clock - p.state.clock)

namespace After

variable {s : Spec} {p q r : Page} {cs ds : List Change}

theorem of_same (h : Current s q) (hstate : q.state = p.state) (htimers : q.timers = p.timers) :
    After s p [] q where
  current := h
  state := hstate
  timers := by
    rw [hstate, Nat.sub_self, htimers]
    exact (List.append_nil _).symm

theorem refl (h : Current s p) : After s p [] p := of_same h rfl rfl

theorem clock_le (h : After s p cs q) : p.state.clock ≤ q.state.clock := by
  rw [h.state]
  exact p.state.clock_le_applyAll cs

theorem trans (h : After s p cs q) (h' : After s q ds r) : After s p (cs ++ ds) r where
  current := h'.current
  state := by rw [h'.state, h.state, State.applyAll_append]
  timers := by
    have hq := h.clock_le
    have hr := h'.clock_le
    have hnext : q.state.clock + 1 = p.state.clock + 1 + (q.state.clock - p.state.clock) := by
      omega
    have hcount : q.state.clock - p.state.clock + (r.state.clock - q.state.clock) =
        r.state.clock - p.state.clock := by omega
    rw [h'.timers, h.timers, List.append_assoc, hnext, List.range'_append_1, hcount]

end After

/-- A change of a page that comes to its end. -/
def Does (s : Spec) (p : Page) (cs : List Change) (r : Page × Bool) : Prop :=
  r.2 = true ∧ After s p cs r.1

section Does

variable {s : Spec} {p : Page}

theorem refresh_does (hdata : p.data = s.toValue) (hscreen : p.state.screen < s.keyScreens.length) :
    Does s p [] p.refresh := by
  have hview := view_toValue s p.state (List.getElem?_eq_getElem hscreen)
  have hwhole : p.refresh.2 = (view p.data p.state).2 := rfl
  refine ⟨?_, .of_same ⟨hdata, hscreen, [], rfl⟩ rfl rfl⟩
  rw [hwhole, hdata, hview]

theorem refresh_after (h : Current s p) (cs : List Change) {st : State}
    (hst : st = p.state.applyAll cs) (hclock : st.clock = p.state.clock)
    (hscreen : st.screen < s.keyScreens.length) :
    Does s p cs ({ p with state := st } : Page).refresh := by
  let shown : Page := { p with state := st }
  obtain ⟨hwhole, hcurrent, hstate, -⟩ := refresh_does (s := s) (p := shown) h.data hscreen
  have hnone : shown.refresh.1.state.clock = p.state.clock := hclock
  have htimers : shown.refresh.1.timers = p.timers := rfl
  refine ⟨hwhole, hcurrent, hstate.trans hst, ?_⟩
  rw [htimers, hnone, Nat.sub_self]
  exact (List.append_nil _).symm

theorem notify_does (h : Current s p) (cs : List Change) {st : State}
    (hst : st = p.state.applyAll cs) (hclock : st.clock = p.state.clock)
    (hscreen : st.screen < s.keyScreens.length) (message : String) :
    Does s p (cs ++ [.note message]) (({ p with state := st } : Page).notify message) := by
  let noted : Page := { p with
    state := st.note message, timers := p.timers ++ [(st.note message).clock] }
  obtain ⟨hwhole, hcurrent, hstate, htimers⟩ :=
    refresh_does (s := s) (p := noted) h.data hscreen
  have hnotify : ({ p with state := st } : Page).notify message = noted.refresh := rfl
  refine ⟨hwhole, hcurrent, ?_, ?_⟩
  · rw [hnotify, hstate, State.applyAll_append, ← hst]
    rfl
  · have hcount : noted.refresh.1.state.clock - p.state.clock = 1 := by
      have hnoted : noted.refresh.1.state.clock = st.clock + 1 := rfl
      omega
    have hid : p.state.clock + 1 = (st.note message).clock := by rw [← hclock]; rfl
    rw [hnotify, hcount, List.range'_one, hid]
    rfl

theorem go_does (h : Current s p) (screen : Nat) :
    Does s p ((Reaction.go screen).changes s p) (p.go screen) := by
  have hcount : (screensOf p.data).length = s.keyScreens.length := by
    rw [h.data, screensOf_toValue, List.length_map]
  rw [Page.go, hcount, Reaction.changes]
  by_cases hscreen : screen < s.keyScreens.length
  · rw [if_pos hscreen, if_pos hscreen]
    exact refresh_after h [.enter screen] rfl rfl hscreen
  · rw [if_neg hscreen, if_neg hscreen]
    exact ⟨rfl, .refl h⟩

theorem dismiss_does (h : Current s p) (id : Nat) : Does s p [.dismiss id] (p.dismiss id) := by
  unfold Page.dismiss
  split
  · exact refresh_after h [.dismiss id] rfl rfl h.screen
  · next hhas =>
    rw [Bool.not_eq_true] at hhas
    have hsame : p.state.applyAll [.dismiss id] = p.state := State.dismiss_of_not_has hhas
    refine ⟨rfl, h, hsame.symm, ?_⟩
    rw [Nat.sub_self]
    exact (List.append_nil _).symm

theorem addItem_does (h : Current s p) (place : Place) :
    Does s p ((Reaction.addItem place).changes s p) (p.addItem place) := by
  rw [Page.addItem, Reaction.changes]
  cases p.reply.map trimmed with
  | none => exact ⟨rfl, .refl h⟩
  | some item =>
    dsimp only
    split
    · exact ⟨rfl, .refl h⟩
    · exact notify_does h [.add place item] rfl rfl h.screen _

theorem submit_does (h : Current s p) (submission : Submission) (values : List Held) :
    Does s p (submission.changes values) (p.submit submission values) :=
  notify_does h [.save submission.place _] rfl rfl h.screen _

theorem screenNamed?_toValue (label : String) {xs : List Screen} (hnames : ∀ x ∈ xs, x.name ≠ "")
    (number : Nat) :
    screenNamed? label number (xs.map Screen.record.toValue) =
      some ((xs.findIdx? fun x => Text.lowerCase x.name = label).map (· + number)) := by
  induction xs generalizing number with
  | nil => rfl
  | cons x xs ih =>
    obtain ⟨hx, hxs⟩ := List.forall_mem_cons.mp hnames
    have hname : filled? (Screen.record.toValue x) "name" = some (.text x.name) := by
      have hmember : member? (Screen.record.toValue x) "name" = some (.text x.name) :=
        x.members_spec.1
      rw [filled?_text hmember, Option.filter_some, if_pos (decide_eq_true hx)]
      rfl
    rw [List.map_cons, screenNamed?, hname, List.findIdx?_cons]
    dsimp only
    split
    · next hfound =>
      rw [if_pos (decide_eq_true hfound), Option.map_some, Nat.zero_add]
    · next hother =>
      have hnot : ¬ decide (Text.lowerCase x.name = label) = true := by
        rwa [decide_eq_true_eq]
      rw [if_neg hnot, ih hxs, Option.map_map]
      refine congrArg (fun g => some (Option.map g _)) (funext fun n => ?_)
      rw [Function.comp_apply]
      omega

theorem act_does (h : Current s p) (hnames : ∀ x ∈ s.keyScreens, x.name ≠ "") (label : String) :
    Does s p ((Reaction.act (.text label)).changes s p) (p.act (.text label)) := by
  have htarget : screenNamed? (Text.lowerCase label) 0 (screensOf p.data) =
      some (namedScreen? s label) := by
    have hfound := screenNamed?_toValue (Text.lowerCase label) hnames 0
    rw [h.data, screensOf_toValue, hfound]
    exact congrArg some Option.map_id'
  have hact : p.act (.text label) =
      ({ p with state := { p.state with screen := (namedScreen? s label).getD p.state.screen } } :
        Page).notify (quoted (.text label) ++ " clicked") := by
    have hlabel : (text? (.text label)).getD "" = label := by rw [text?]; rfl
    rw [Page.act, hlabel, htarget]
  rw [hact, changes_act]
  cases hnamed : namedScreen? s label with
  | none => exact notify_does h [] rfl rfl h.screen _
  | some n =>
    obtain ⟨hn, -⟩ := List.findIdx?_eq_some_iff_getElem.mp hnamed
    exact notify_does h [.enter n] rfl rfl hn _

theorem dismissAll_does (h : Current s p) (ids : List Nat) :
    Does s p (ids.map .dismiss) (p.dismissAll ids) := by
  induction ids generalizing p with
  | nil => exact ⟨rfl, .refl h⟩
  | cons id ids ih =>
    obtain ⟨hwhole, hafter⟩ := dismiss_does h id
    obtain ⟨hwhole', hafter'⟩ := ih hafter.current
    have hstep : p.dismissAll (id :: ids) = (p.dismiss id).1.dismissAll ids := by
      rw [dismissAll]
      split
      · next q heq => rw [heq]
      · next q heq =>
        rw [heq] at hwhole
        cases hwhole
    rw [hstep]
    exact ⟨hwhole', hafter.trans hafter'⟩

end Does

def Performs (s : Spec) (p : Page) (cs : List Change) (r : Page × Result) : Prop :=
  r.2 ≠ .error .stopped ∧ After s p cs r.1

section Performs

variable {s : Spec} {p : Page}

theorem Does.conclude {cs : List Change} {r : Page × Bool} (h : Does s p cs r) :
    Performs s p cs (conclude r) := by
  obtain ⟨hwhole, hafter⟩ := h
  refine ⟨?_, hafter⟩
  rw [Page.conclude, hwhole]
  nofun

theorem performs_nothing (h : Current s p) {result : Result} (hresult : result ≠ .error .stopped) :
    Performs s p [] (p, result) := ⟨hresult, .refl h⟩

theorem press_performs {f : Element.Found} {r : Reaction} (htype : f.element.head.type ≠ "submit")
    (hclick : f.element.head.onClick = some r) (hdoes : Does s p (r.changes s p) (p.react r)) :
    Performs s p (clickChanges s p f) (p.press f.element) := by
  rw [clickChanges_of_onClick s p htype hclick, press, hclick]
  exact hdoes.conclude

theorem submit_performs (h : Current s p) {e form : Element} {submission : Submission}
    (htype : e.head.type = "submit") (hsubmit : form.head.onSubmit = some submission) :
    Performs s p (clickChanges s p ⟨e, some form⟩) (p.push ⟨e, some form⟩) := by
  rw [clickChanges, if_pos htype, push, if_pos htype]
  dsimp only
  rw [hsubmit]
  exact (submit_does h submission _).conclude

theorem push_performs (h : Current s p) (hnames : ∀ x ∈ s.keyScreens, x.name ≠ "")
    {f : Element.Found} (hf : f ∈ buttons none p.content) :
    Performs s p (clickChanges s p f) (p.push f) := by
  have hplain (htype : f.element.head.type ≠ "submit") : p.push f = p.press f.element :=
    if_neg htype
  have hbutton : "button" ≠ "submit" := by decide
  -- by what the button is wired to, which is the same whatever was typed since
  cases h.wired hf with
  | action className label form =>
    rw [hplain hbutton]
    exact press_performs hbutton rfl (act_does h hnames label)
  | adding className place form =>
    rw [hplain hbutton]
    exact press_performs hbutton rfl (addItem_does h place)
  | submitting className label hsubmit => exact submit_performs h rfl hsubmit

theorem pressAny_performs (h : Current s p) {es : List Element} (n : Nat) {trouble : Trouble}
    (htrouble : trouble ≠ .stopped)
    (hpress : ∀ e ∈ es, Performs s p (clickChanges s p ⟨e, none⟩) (p.press e)) :
    Performs s p (((es[n]?.map fun e => (⟨e, none⟩ : Element.Found)).map
      (clickChanges s p)).getD []) (p.pressAny es[n]? trouble) := by
  cases he : es[n]? with
  | none => exact performs_nothing h fun heq => htrouble (Except.error.inj heq)
  | some e => exact hpress e (List.mem_of_getElem? he)

theorem nav_performs (h : Current s p) (n : Nat) :
    Performs s p ((Deed.event (.nav n)).changes s p) (p.step (.nav n)) := by
  refine pressAny_performs h n nofun fun e he => ?_
  rw [h.withClass_link] at he
  obtain ⟨q, -, rfl⟩ := List.mem_map.mp he
  have htype : "button" ≠ "submit" := by decide
  exact press_performs (f := ⟨_, none⟩) htype rfl (go_does h q.2)

theorem toast_performs (h : Current s p) (n : Nat) :
    Performs s p ((Deed.event (.toast n)).changes s p) (p.step (.toast n)) := by
  refine pressAny_performs h n nofun fun e he => ?_
  rw [h.withClass_toast] at he
  obtain ⟨note, -, rfl⟩ := List.mem_map.mp he
  have htype : "" ≠ "submit" := by decide
  exact press_performs (f := ⟨_, none⟩) htype rfl (dismiss_does h note.id)

theorem fill_performs (h : Current s p) (n : Nat) (text : String) :
    Performs s p [] (p.step (.fill n text)) := by
  rw [step]
  split
  · obtain ⟨typed, htyped⟩ := h.content
    have hcontent : (fillAll (.text text) (some n) p.content).1 =
        typeIn (typed ++ [(n, text)]) (view p.data p.state).1 := by
      rw [typeIn_concat, htyped]
    have hcurrent : Current s
        { p with content := (fillAll (.text text) (some n) p.content).1 } :=
      ⟨h.data, h.screen, typed ++ [(n, text)], hcontent⟩
    exact ⟨nofun, .of_same hcurrent rfl rfl⟩
  · exact performs_nothing h nofun

theorem click_performs (h : Current s p) (hnames : ∀ x ∈ s.keyScreens, x.name ≠ "")
    (label : String) :
    Performs s p ((Deed.event (.click label)).changes s p) (p.step (.click label)) := by
  have hclick : p.step (.click label) = p.click label := rfl
  have hchanges : (Deed.event (.click label)).changes s p =
      ((p.button? label).map (clickChanges s p)).getD [] := rfl
  rw [hclick, click, hchanges]
  cases hf : p.button? label with
  | none => exact performs_nothing h nofun
  | some f =>
    have hbutton := List.find?_some hf
    rw [Bool.and_eq_true] at hbutton
    exact push_performs h hnames (List.mem_filter.mpr ⟨List.mem_of_find?_eq_some hf, hbutton.1⟩)

theorem timers_performs (h : Current s { p with timers := [] }) :
    Performs s { p with timers := [] } (p.timers.map .dismiss) p.runTimers := by
  obtain ⟨hwhole, hafter⟩ := dismissAll_does h p.timers
  rw [runTimers]
  split
  · next q heq =>
    rw [heq] at hafter
    exact ⟨nofun, hafter⟩
  · next q heq =>
    rw [heq] at hwhole
    cases hwhole

theorem timer_performs (h : Current s p) (id : Nat) :
    Performs s { p with timers := p.timers.erase id } ((Deed.timer id).changes s p)
      (p.perform (.timer id)) := by
  rw [perform, fire, Deed.changes]
  by_cases hid : id ∈ p.timers
  · have hleft : Current s { p with timers := p.timers.erase id } :=
      ⟨h.data, h.screen, h.content⟩
    rw [if_pos hid, if_pos hid]
    exact (dismiss_does hleft id).conclude
  · rw [if_neg hid, if_neg hid, List.erase_of_not_mem hid]
    exact performs_nothing h nofun

end Performs

theorem perform_performs {s : Spec} {p : Page} (h : Current s p)
    (hnames : ∀ x ∈ s.keyScreens, x.name ≠ "") (d : Deed) :
    Performs s { p with timers := d.timersLeft p } (d.changes s p) (p.perform d) := by
  cases d with
  | push n =>
    have hchanges : (Deed.push n).changes s p =
        ((buttons none p.content)[n]?.map (clickChanges s p)).getD [] := rfl
    rw [perform, hchanges]
    cases hf : (buttons none p.content)[n]? with
    | none => exact performs_nothing h nofun
    | some f => exact push_performs h hnames (List.mem_of_getElem? hf)
  | timer id => exact timer_performs h id
  | event e =>
    cases e with
    | click label => exact click_performs h hnames label
    | nav n => exact nav_performs h n
    | toast n => exact toast_performs h n
    | fill n text => exact fill_performs h n text
    | prompt reply => exact ⟨nofun, .of_same ⟨h.data, h.screen, h.content⟩ rfl rfl⟩
    | timers => exact timers_performs ⟨h.data, h.screen, h.content⟩

end Mockup.Page
