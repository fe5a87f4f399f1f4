import Mathlib.Data.List.Basic
import Mockup.Page.State

/-! Changes of the state of a page. The state is what the changes so far make of it, so what it
shows of the notifications can be told from the ones that were posted and those that were
dismissed. -/

namespace Mockup.Page

inductive Change where
  | enter (screen : Nat)
  | save (place : Place) (saved : Saved)
  | add (place : Place) (item : String)
  | note (message : String)
  | dismiss (id : Nat)

namespace Change

def message? : Change → Option String
  | note message => some message
  | _ => none

def dismissed? : Change → Option Nat
  | dismiss id => some id
  | _ => none

end Change

open Change

def posted (cs : List Change) : List Notification :=
  ((cs.filterMap message?).zipIdx 1).map fun p => ⟨p.2, p.1⟩

def dismissed (cs : List Change) : List Nat := cs.filterMap dismissed?

theorem mem_dismissed_iff {cs : List Change} {id : Nat} : id ∈ dismissed cs ↔ .dismiss id ∈ cs := by
  rw [dismissed, List.mem_filterMap]
  constructor
  · rintro ⟨c, hc, hid⟩
    cases c with
    | dismiss id' =>
      obtain rfl := Option.some.inj hid
      exact hc
    | enter screen | save place saved | add place item | note message => cases hid
  · intro h
    exact ⟨.dismiss id, h, rfl⟩

namespace State

def apply (st : State) : Change → State
  | .enter screen => { st with screen }
  | .save place saved => st.save place saved
  | .add place item => st.add place item
  | .note message => st.note message
  | .dismiss id => st.dismiss id

def applyAll (st : State) (cs : List Change) : State := cs.foldl apply st

theorem applyAll_append (st : State) (cs ds : List Change) :
    st.applyAll (cs ++ ds) = (st.applyAll cs).applyAll ds := List.foldl_append

theorem dismiss_of_not_has {st : State} {id : Nat} (h : st.has id = false) :
    st.dismiss id = st := by
  have hkept : st.notifications.filter (fun n => n.id ≠ id) = st.notifications := by
    refine List.filter_eq_self.mpr fun n hn => ?_
    have hid := List.any_eq_false.mp h n hn
    rwa [decide_eq_true_eq] at hid ⊢
  rw [dismiss, hkept]

end State

section Posted

theorem length_posted (cs : List Change) : (posted cs).length = (cs.filterMap message?).length := by
  rw [posted, List.length_map, List.length_zipIdx]

theorem posted_note (cs : List Change) (message : String) :
    posted (cs ++ [.note message]) = posted cs ++ [⟨(posted cs).length + 1, message⟩] := by
  have hmessages : (cs ++ [Change.note message]).filterMap message? =
      cs.filterMap message? ++ [message] := by
    rw [List.filterMap_append]
    rfl
  rw [length_posted, posted, hmessages, List.zipIdx_append, List.map_append, posted,
    Nat.add_comm 1]
  rfl

theorem posted_of_message?_eq_none {c : Change} (cs : List Change) (h : c.message? = none) :
    posted (cs ++ [c]) = posted cs := by
  rw [posted, List.filterMap_append, List.filterMap_cons, h]
  exact congrArg _ (congrArg (List.zipIdx · 1) (List.append_nil _))

theorem map_id_posted (cs : List Change) :
    (posted cs).map Notification.id = List.range' 1 (posted cs).length := by
  rw [length_posted, posted, List.map_map]
  exact List.zipIdx_map_snd 1 _

end Posted

/-- What the state shows are posted notifications, the latest first, and there are few of them. -/
structure State.Shows (st : State) (cs : List Change) : Prop where
  clock : st.clock = (posted cs).length
  few : st.notifications.length ≤ State.notificationLimit
  latestFirst : st.notifications.Sublist (posted cs).reverse

namespace State.Shows

variable {st : State} {cs : List Change}

theorem congr {st' : State} {cs' : List Change} (h : st.Shows cs) (hclock : st'.clock = st.clock)
    (hnotes : st'.notifications = st.notifications) (hposted : posted cs' = posted cs) :
    st'.Shows cs' := by
  obtain ⟨hcount, hfew, hlatest⟩ := h
  rw [← hclock, ← hposted] at hcount
  rw [← hnotes] at hfew
  rw [← hnotes, ← hposted] at hlatest
  exact ⟨hcount, hfew, hlatest⟩

theorem apply (h : st.Shows cs) (c : Change) : (st.apply c).Shows (cs ++ [c]) := by
  cases c with
  | note message =>
    have hnote : (st.apply (.note message)).notifications =
        (⟨st.clock + 1, message⟩ :: st.notifications).take notificationLimit := rfl
    refine ⟨?_, ?_, ?_⟩
    · rw [posted_note, List.length_append, ← h.clock]
      rfl
    · rw [hnote]
      exact List.length_take_le _ _
    · rw [hnote, posted_note, List.reverse_append, h.clock]
      exact (List.take_sublist _ _).trans (h.latestFirst.cons_cons _)
  | dismiss id =>
    have hposted : posted (cs ++ [.dismiss id]) = posted cs := posted_of_message?_eq_none cs rfl
    have hdismiss : (st.apply (.dismiss id)).notifications =
        st.notifications.filter fun n => n.id ≠ id := rfl
    refine ⟨?_, ?_, ?_⟩
    · rw [hposted]
      exact h.clock
    · rw [hdismiss]
      exact Nat.le_trans (List.length_filter_le _ _) h.few
    · rw [hdismiss, hposted]
      exact List.filter_sublist.trans h.latestFirst
  | enter screen | save place saved | add place item =>
    exact h.congr rfl rfl (posted_of_message?_eq_none cs rfl)

theorem applyAll (h : st.Shows cs) (ds : List Change) : (st.applyAll ds).Shows (cs ++ ds) := by
  induction ds generalizing st cs with
  | nil =>
    rw [List.append_nil]
    exact h
  | cons d ds ih =>
    rw [← List.singleton_append, ← List.append_assoc]
    exact ih (h.apply d)

end State.Shows

namespace State

variable {st : State} {cs : List Change}

theorem clock_apply (st : State) (c : Change) :
    (st.apply c).clock = st.clock + c.message?.toList.length := by
  cases c <;> rfl

theorem clock_applyAll (st : State) (cs : List Change) :
    (st.applyAll cs).clock = st.clock + (posted cs).length := by
  rw [length_posted]
  induction cs generalizing st with
  | nil => rfl
  | cons c cs ih =>
    have hcount : ((c :: cs).filterMap message?).length =
        c.message?.toList.length + (cs.filterMap message?).length := by
      rw [List.filterMap_cons]
      cases c with
      | note message => exact Nat.add_comm _ _
      | enter screen | save place saved | add place item | dismiss id => exact (Nat.zero_add _).symm
    rw [hcount, ← Nat.add_assoc, ← clock_apply]
    exact ih (st.apply c)

theorem clock_le_apply (st : State) (c : Change) : st.clock ≤ (st.apply c).clock := by
  rw [clock_apply]
  exact Nat.le_add_right _ _

theorem clock_le_applyAll (st : State) (cs : List Change) : st.clock ≤ (st.applyAll cs).clock := by
  rw [clock_applyAll]
  exact Nat.le_add_right _ _

theorem mem_notifications_apply {c : Change} {n : Notification}
    (hn : n ∈ (st.apply c).notifications) :
    n ∈ st.notifications ∧ c.dismissed? ≠ some n.id ∨
      st.clock < n.id ∧ n.id ≤ (st.apply c).clock := by
  cases c with
  | note message =>
    rcases List.mem_cons.mp (List.mem_of_mem_take hn) with rfl | hmem
    · exact .inr ⟨Nat.lt_succ_self _, Nat.le_refl _⟩
    · exact .inl ⟨hmem, nofun⟩
  | dismiss id =>
    obtain ⟨hmem, hid⟩ := List.mem_filter.mp hn
    rw [decide_eq_true_eq] at hid
    exact .inl ⟨hmem, fun h => hid (Option.some.inj h).symm⟩
  | enter screen | save place saved | add place item => exact .inl ⟨hn, nofun⟩

theorem mem_notifications_applyAll {n : Notification}
    (hn : n ∈ (st.applyAll cs).notifications) :
    n ∈ st.notifications ∧ n.id ∉ dismissed cs ∨
      st.clock < n.id ∧ n.id ≤ (st.applyAll cs).clock := by
  induction cs generalizing st with
  | nil => exact .inl ⟨hn, List.not_mem_nil⟩
  | cons c cs ih =>
    have hlater := (st.apply c).clock_le_applyAll cs
    rcases ih hn with ⟨hmem, hkept⟩ | ⟨hnew, hold⟩
    · rcases mem_notifications_apply hmem with ⟨hshown, hnot⟩ | ⟨hnew, hold⟩
      · refine .inl ⟨hshown, fun hgone => ?_⟩
        obtain ⟨d, hd, hid⟩ := List.mem_filterMap.mp hgone
        rcases List.mem_cons.mp hd with rfl | hd
        · exact hnot hid
        · exact hkept (List.mem_filterMap.mpr ⟨d, hd, hid⟩)
      · exact .inr ⟨hnew, Nat.le_trans hold hlater⟩
    · exact .inr ⟨Nat.lt_of_le_of_lt (st.clock_le_apply c) hnew, hold⟩

end State

end Mockup.Page
