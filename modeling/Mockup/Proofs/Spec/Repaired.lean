import Mockup.Proofs.Json.Equal
import Mockup.Proofs.Spec.Complete
import Mockup.Proofs.Spec.Valid

/-! What is wrong with a specification, and what completing it repairs. Validation names the first
fault, and never one of the schema; a completed specification has none, and completing changes
nothing just where there was none. -/

namespace Mockup

open Json

structure Screen.Whole (x : Screen) : Prop where
  named : Text.isBlankText x.name = false
  hasComponent : x.components ≠ []

/-- What is wrong with the screen at a place, its name before its components. -/
inductive Screen.Fault (place : Nat) (x : Screen) : SpecError → Prop where
  | unnamed : Text.isBlankText x.name = true → Fault place x (.unnamedScreen place)
  | componentless : Text.isBlankText x.name = false → x.components = [] →
      Fault place x (.componentlessScreen x.name)

/-- The first thing wrong with the specification: its title, its list of screens, or the first
screen with a fault. -/
inductive Spec.FirstFault (s : Spec) : SpecError → Prop where
  | untitled : Text.isBlankText s.title = true → FirstFault s .emptyTitle
  | screenless : Text.isBlankText s.title = false → s.keyScreens = [] → FirstFault s .noScreens
  | atScreen {before after : List Screen} {x : Screen} {e : SpecError} :
      Text.isBlankText s.title = false → s.keyScreens = before ++ x :: after →
      (∀ y ∈ before, y.Whole) → x.Fault before.length e → FirstFault s e

theorem Screen.Whole.of_same {x y : Screen} (hx : x.Whole)
    (h : (record.toValue x).same (record.toValue y) = true) : y.Whole := by
  obtain ⟨hname, -, -, -, hcomponents⟩ := x.members_spec
  obtain ⟨hname', -, -, -, hcomponents'⟩ := y.members_spec
  rw [Record.toValue_eq, Record.toValue_eq, Value.same] at h
  obtain ⟨name, hget, hsame⟩ := Value.get?_of_sameMembers h hname
  obtain ⟨list, hgets, hlist⟩ := Value.get?_of_sameMembers h hcomponents
  obtain rfl := Option.some.inj (hname'.symm.trans hget)
  obtain rfl := Option.some.inj (hcomponents'.symm.trans hgets)
  have hnames : x.name = y.name := Value.text.inj (Value.eq_of_same (.text _) hsame)
  have hlength := (Value.forall₂_of_sameItems hlist).length_eq
  rw [List.length_map, List.length_map] at hlength
  refine ⟨hnames ▸ hx.named, fun hnil => hx.hasComponent ?_⟩
  rwa [hnil, List.length_nil, List.length_eq_zero_iff] at hlength

theorem Spec.completeScreen_eq_self {x : Screen} (h : x.Whole) (place : Nat) :
    completeScreen place x = x := by
  have hcomponents : x.components.isEmpty = false := by
    rw [← Bool.not_eq_true, List.isEmpty_iff]
    exact h.hasComponent
  rw [completeScreen, h.named, hcomponents]
  rfl

namespace Spec

variable {s t : Spec}

theorem whole_completeScreen (place : Nat) (x : Screen) : (completeScreen place x).Whole := by
  refine ⟨not_blank_completeScreen place x, ?_⟩
  have hcomponents : (completeScreen place x).components =
      if x.components.isEmpty then
        [Placeholder.component (completeScreen place x).name x.goal]
      else x.components := rfl
  rw [hcomponents]
  split
  · exact List.cons_ne_nil _ _
  · next h => exact List.isEmpty_iff.not.mp h

theorem checkScreens_eq_error_iff {n : Nat} {xs : List Screen} {e : SpecError} :
    checkScreens n xs = .error e ↔ ∃ before x after, xs = before ++ x :: after ∧
      (∀ y ∈ before, y.Whole) ∧ x.Fault (n + before.length) e := by
  constructor
  · intro h
    induction xs generalizing n with
    | nil => cases h
    | cons x xs ih =>
      rw [checkScreens] at h
      split_ifs at h with hname hcomponents
      · cases h
        exact ⟨[], x, xs, rfl, List.forall_mem_nil _, .unnamed hname⟩
      · cases h
        exact ⟨[], x, xs, rfl, List.forall_mem_nil _,
          .componentless (Bool.not_eq_true _ ▸ hname) (List.isEmpty_iff.mp hcomponents)⟩
      · obtain ⟨before, y, after, rfl, hbefore, hfault⟩ := ih h
        have hx : x.Whole :=
          ⟨Bool.not_eq_true _ ▸ hname, List.isEmpty_iff.not.mp hcomponents⟩
        refine ⟨x :: before, y, after, rfl, List.forall_mem_cons.mpr ⟨hx, hbefore⟩, ?_⟩
        rwa [List.length_cons, Nat.add_comm before.length 1, ← Nat.add_assoc]
  · rintro ⟨before, x, after, rfl, hbefore, hfault⟩
    -- the whole screens are passed one by one, each adding one to the place of those behind it
    induction before generalizing n with
    | nil =>
      rw [List.nil_append, checkScreens]
      cases hfault with
      | unnamed hname => rw [if_pos hname]; rfl
      | componentless hname hnil => rw [hname, hnil]; rfl
    | cons y before ih =>
      obtain ⟨hy, hbefore⟩ := List.forall_mem_cons.mp hbefore
      have hcomponents : y.components.isEmpty = false := by
        rw [← Bool.not_eq_true, List.isEmpty_iff]
        exact hy.hasComponent
      rw [List.length_cons, Nat.add_comm before.length 1, ← Nat.add_assoc] at hfault
      rw [List.cons_append, checkScreens, hy.named, hcomponents]
      exact ih hbefore hfault

theorem validate_eq_ok_iff_whole : s.validate = .ok () ↔
    Text.isBlankText s.title = false ∧ s.keyScreens ≠ [] ∧ ∀ x ∈ s.keyScreens, x.Whole := by
  rw [validate_eq_ok_iff]
  refine and_congr Iff.rfl (and_congr Iff.rfl (forall₂_congr fun x _ => ?_))
  exact ⟨fun h => ⟨h.1, h.2⟩, fun h => ⟨h.named, h.hasComponent⟩⟩

theorem validate_eq_error_iff {e : SpecError} : s.validate = .error e ↔ s.FirstFault e := by
  constructor
  · intro h
    have hinvalid : s.validate ≠ .ok () := by
      rw [h]
      nofun
    rw [validate] at h
    split_ifs at h with htitle hscreens
    · cases h
      exact .untitled htitle
    · cases h
      exact .screenless (Bool.not_eq_true _ ▸ htitle) (List.isEmpty_iff.mp hscreens)
    · have htitled : Text.isBlankText s.title = false := Bool.not_eq_true _ ▸ htitle
      cases hcheck : checkScreens 0 s.keyScreens with
      | error e' =>
        rw [hcheck] at h
        cases h
        obtain ⟨before, x, after, hsplit, hbefore, hfault⟩ := checkScreens_eq_error_iff.mp hcheck
        rw [Nat.zero_add] at hfault
        exact .atScreen htitled hsplit hbefore hfault
      | ok u =>
        -- then the schema has nothing against it either
        exact absurd (validate_eq_ok_iff.mpr ⟨htitled, List.isEmpty_iff.not.mp hscreens,
          checkScreens_eq_ok_iff.mp hcheck⟩) hinvalid
  · intro h
    cases h with
    | untitled htitle => rw [validate, if_pos htitle]
    | screenless htitle hnil => rw [validate, htitle, hnil]; rfl
    | @atScreen before after x e htitle hsplit hbefore hfault =>
      rw [← Nat.zero_add before.length] at hfault
      have hcheck : checkScreens 0 s.keyScreens = .error e :=
        checkScreens_eq_error_iff.mpr ⟨before, x, after, hsplit, hbefore, hfault⟩
      have hscreens : s.keyScreens.isEmpty = false := by rw [hsplit]; cases before <;> rfl
      rw [validate, htitle, hscreens, hcheck]
      rfl

theorem not_blank_title_complete (s : Spec) : Text.isBlankText s.complete.title = false := by
  have htitle : s.complete.title =
      if Text.isBlankText s.title then Placeholder.title else s.title := rfl
  rw [htitle]
  split
  · decide
  · next h => rwa [Bool.not_eq_true] at h

theorem validate_complete (s : Spec) : s.complete.validate = .ok () := by
  refine validate_eq_ok_iff_whole.mpr
    ⟨not_blank_title_complete s, keyScreens_complete_ne_nil s, fun x hx => ?_⟩
  have hscreens : ∃ xs, s.complete.keyScreens = completeScreens 0 xs := ⟨_, rfl⟩
  obtain ⟨xs, hxs⟩ := hscreens
  rw [hxs, completeScreens_eq, List.mem_map] at hx
  obtain ⟨p, -, rfl⟩ := hx
  exact whole_completeScreen p.2 p.1

theorem complete_eq_self (h : s.validate = .ok ()) : s.complete = s := by
  obtain ⟨htitle, hscreens, hwhole⟩ := validate_eq_ok_iff_whole.mp h
  have hsome : s.keyScreens.isEmpty = false := by
    rwa [← Bool.not_eq_true, List.isEmpty_iff]
  have hkept : completeScreens 0 s.keyScreens = s.keyScreens := by
    rw [completeScreens_eq]
    calc (s.keyScreens.zipIdx 0).map (fun p => completeScreen p.2 p.1)
        = (s.keyScreens.zipIdx 0).map Prod.fst := List.map_congr_left fun p hp =>
          completeScreen_eq_self (hwhole p.1 (List.fst_mem_of_mem_zipIdx hp)) p.2
      _ = s.keyScreens := List.zipIdx_map_fst 0 s.keyScreens
  rw [complete, htitle, hsome, if_neg Bool.false_ne_true, if_neg Bool.false_ne_true, hkept]

theorem valid_of_same (h : s.same t = true) (hs : s.validate = .ok ()) : t.validate = .ok () := by
  obtain ⟨htitle, hscreens, hwhole⟩ := validate_eq_ok_iff_whole.mp hs
  obtain ⟨ht, -, -, -, hxs, -⟩ := s.members_spec
  obtain ⟨ht', -, -, -, hxs', -⟩ := t.members_spec
  rw [same, toValue, toValue, Record.toValue_eq, Record.toValue_eq, Value.same] at h
  obtain ⟨title, hget, hsame⟩ := Value.get?_of_sameMembers h ht
  obtain ⟨list, hgets, hlist⟩ := Value.get?_of_sameMembers h hxs
  obtain rfl := Option.some.inj (ht'.symm.trans hget)
  obtain rfl := Option.some.inj (hxs'.symm.trans hgets)
  have htitles : s.title = t.title := Value.text.inj (Value.eq_of_same (.text _) hsame)
  have hall := Value.forall₂_of_sameItems hlist
  rw [List.forall₂_map_left_iff, List.forall₂_map_right_iff] at hall
  refine validate_eq_ok_iff_whole.mpr ⟨htitles ▸ htitle, fun hnil => ?_, ?_⟩
  · rw [hnil, List.forall₂_nil_right_iff] at hall
    exact hscreens hall
  · generalize s.keyScreens = xs at hall hwhole
    generalize t.keyScreens = ys at hall
    clear hlist hxs hxs' hgets hscreens
    induction hall with
    | nil => exact List.forall_mem_nil _
    | cons hxy _ ih =>
      obtain ⟨hx, hmore⟩ := List.forall_mem_cons.mp hwhole
      exact List.forall_mem_cons.mpr ⟨hx.of_same hxy, ih hmore⟩

/-- Completing, validating by hand and the schema ask for the same things. -/
theorem complete_validate_agree (s : Spec) :
    (∀ violations, s.validate ≠ .error (.schema violations)) ∧
    (s.validate = .ok () ↔ Text.isBlankText s.title = false ∧ s.keyScreens ≠ [] ∧
      ∀ x ∈ s.keyScreens, Text.isBlankText x.name = false ∧ x.components ≠ []) ∧
    (∀ e, s.validate = .error e ↔ s.FirstFault e) ∧
    s.complete.validate = .ok () ∧
    (s.complete = s ↔ s.validate = .ok ()) ∧ (s.complete.same s = true ↔ s.validate = .ok ()) ∧
    s.complete.complete = s.complete := by
  have hsame : s.complete.same s = true ↔ s.validate = .ok () := by
    refine ⟨fun h => valid_of_same h (validate_complete s), fun h => ?_⟩
    rw [complete_eq_self h]
    exact same_refl s
  refine ⟨fun violations h => ?_, validate_eq_ok_iff, fun e => validate_eq_error_iff,
    validate_complete s, ⟨fun h => ?_, complete_eq_self⟩, hsame,
    complete_eq_self (validate_complete s)⟩
  · rcases validate_eq_error_iff.mp h with _ | _ | ⟨-, -, -, ⟨-⟩ | ⟨-⟩⟩
  · rw [← h]
    exact validate_complete s

end Spec

end Mockup
