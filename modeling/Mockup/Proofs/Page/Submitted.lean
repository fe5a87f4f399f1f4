import Mockup.Proofs.Page.Kept

/-! What a form shows of what was submitted. The values of the inputs are read by their places and
kept under their labels, so they all come back if and only if those with one label are the same, and
no label is the one under which nothing can be kept. -/

namespace Mockup.Page

open View Element

def restored (labels : List String) (vs : List Held) (label : String) : Held :=
  if label = State.unsavable then .object
  else ((labels.zip vs).reverse.lookup label).getD (.text "")

/-- Values that can be told from their labels, and that are shown anyway where none can be kept. -/
structure Restorable (labels : List String) (vs : List Held) : Prop where
  alike : ∀ i j : Nat, labels[i]? = labels[j]? → vs[i]? = vs[j]?
  unsavable : ∀ i : Nat, labels[i]? = some State.unsavable → vs[i]? = some .object

section Restored

variable {labels : List String} {vs : List Held}

theorem exists_restored {label : String} (hlength : vs.length = labels.length)
    (hmem : label ∈ labels) (hsavable : label ≠ State.unsavable) :
    ∃ i : Nat, labels[i]? = some label ∧ vs[i]? = some (restored labels vs label) := by
  have hrestored : restored labels vs label =
      ((labels.zip vs).reverse.lookup label).getD (.text "") := if_neg hsavable
  have hfound : ((labels.zip vs).reverse.lookup label).isSome = true := by
    obtain ⟨i, hi, hlabel⟩ := List.getElem_of_mem hmem
    have hbound : i < vs.length := hlength ▸ hi
    have hpair : (label, vs[i]) ∈ (labels.zip vs).reverse := by
      rw [List.mem_reverse, List.mem_iff_getElem?]
      refine ⟨i, List.getElem?_zip_eq_some.mpr ⟨?_, List.getElem?_eq_getElem _⟩⟩
      rw [List.getElem?_eq_getElem hi, hlabel]
    exact List.lookup_isSome_iff.mpr ⟨_, hpair, beq_self_eq_true label⟩
  obtain ⟨v, hv⟩ := Option.isSome_iff_exists.mp hfound
  have hpair := List.mem_reverse.mp (mem_of_lookup hv)
  obtain ⟨i, hi⟩ := List.mem_iff_getElem?.mp hpair
  obtain ⟨hlabel, hvalue⟩ := List.getElem?_zip_eq_some.mp hi
  rw [hrestored, hv]
  exact ⟨i, hlabel, hvalue⟩

/-- All values come back exactly if they are restorable. -/
theorem map_restored_eq_iff (hlength : vs.length = labels.length) :
    labels.map (restored labels vs) = vs ↔ Restorable labels vs := by
  constructor
  · intro h
    have hget (i : Nat) : vs[i]? = labels[i]?.map (restored labels vs) := by
      rw [← List.getElem?_map, h]
    refine ⟨fun i j hij => by rw [hget, hget, hij], fun i hi => ?_⟩
    rw [hget, hi]
    rfl
  · intro h
    refine List.ext_getElem? fun i => ?_
    rw [List.getElem?_map]
    cases hi : labels[i]? with
    | none =>
      rw [List.getElem?_eq_none_iff, ← hlength] at hi
      exact (List.getElem?_eq_none hi).symm
    | some label =>
      rw [Option.map_some]
      by_cases hlabel : label = State.unsavable
      · rw [h.unsavable i (hlabel ▸ hi), restored, if_pos hlabel]
      · obtain ⟨j, hj, hvalue⟩ := exists_restored hlength (List.mem_of_getElem? hi) hlabel
        rw [← hvalue, h.alike i j (hi.trans hj.symm)]

theorem restorable_of_nodup (hlength : vs.length = labels.length) (hlabels : labels.Nodup)
    (hsavable : State.unsavable ∉ labels) : Restorable labels vs where
  alike i j hij := by
    by_cases hi : i < labels.length
    · rw [(List.getElem?_inj hi hlabels).mp hij]
    · have hnone : labels[i]? = none := List.getElem?_eq_none (Nat.not_lt.mp hi)
      rw [hnone, eq_comm, List.getElem?_eq_none_iff, ← hlength] at hij
      rw [List.getElem?_eq_none (hlength ▸ Nat.not_lt.mp hi), List.getElem?_eq_none hij]
  unsavable i hi := absurd (List.mem_of_getElem? hi) hsavable

end Restored

def inputsAt? (p : Page) (place : Place) : Option (List Held) :=
  ((controls p.content).lookup place).map fun e => values [e]

section Inputs

theorem inputs_append (es fs : List Element) : inputs (es ++ fs) = inputs es ++ inputs fs := by
  rw [inputs, all_append, List.filter_append]
  rfl

theorem values_append (es fs : List Element) : values (es ++ fs) = values es ++ values fs := by
  rw [values, inputs_append, List.map_append]
  rfl

theorem values_map {α : Type} {g : α → Element} {k : α → Held} (h : ∀ x, values [g x] = [k x])
    (xs : List α) : values (xs.map g) = xs.map k := by
  induction xs with
  | nil => rfl
  | cons x xs ih =>
    have hcons : values ((x :: xs).map g) = values [g x] ++ values (xs.map g) :=
      values_append [g x] (xs.map g)
    rw [hcons, h, ih]
    rfl

theorem length_values_untyped (es : List Element) :
    (values (untypedAll es)).length = (values es).length := by
  rw [values, values, List.length_map, List.length_map, ← map_untyped_inputs, List.length_map]

theorem values_form (st : State) (place : Place) (c : Component) :
    values [Drawn.form st place c] =
      (Drawn.fields c).map fun label => (st.saved? place label).getD (.text "") := by
  have hfield (q : String × Nat) : values [Drawn.field st place q.1 q.2] =
      [(st.saved? place q.1).getD (.text "")] := rfl
  have hform : values [Drawn.form st place c] = values (Drawn.form st place c).children := by
    rw [values, inputs, all_cons, all_nil, List.append_nil]
    rfl
  have hparts : (Drawn.form st place c).children =
      ((Drawn.fields c).zipIdx.map fun q => Drawn.field st place q.1 q.2) ++
        [button (buttonClass true) "submit" (Drawn.submitLabel c) none] := rfl
  have hbutton : values [button (buttonClass true) "submit" (Drawn.submitLabel c) none] = [] := rfl
  rw [hform, hparts, values_append, values_map hfield, hbutton, List.append_nil]
  exact map_zipIdx_fst fun _ _ => rfl

end Inputs

namespace Current

variable {s : Spec} {p : Page} {place : Place} {c : Component} {d : Deed} {vs : List Held}

theorem inputsAt_of_mem (h : Current s p) {e : Element} (he : (place, e) ∈ controls p.content) :
    inputsAt? p place = some (values [e]) := by
  rw [inputsAt?, lookup_of_mem h.nodup_controls he]
  rfl

theorem inputs_of_submission (h : Current s p) (hvs : d.submission? p place = some vs) :
    ∃ c, s.componentAt? place = some c ∧ c.kind = .form ∧
      vs.length = (Drawn.fields c).length ∧ inputsAt? p place = some vs := by
  obtain ⟨f, hclick, hvalues⟩ := Option.bind_eq_some_iff.mp hvs
  obtain ⟨hsaves, hvalues⟩ := Option.ite_none_right_eq_some.mp hvalues
  obtain ⟨e, c, hform, hmem, hc, hkind, huntyped⟩ := h.form_of_saves hclick hsaves
  rw [hform] at hvalues
  obtain rfl := Option.some.inj hvalues
  refine ⟨c, hc, hkind, ?_, h.inputsAt_of_mem hmem⟩
  rw [← length_values_untyped, Retyped.singleton huntyped, length_values_untyped, values_form,
    List.length_map]

theorem content_of_submission (h : Current s p) (hvs : d.submission? p place = some vs) :
    (p.perform d).1.content = (p.perform d).1.refresh.1.content ∧
      (p.perform d).1.state.screen = p.state.screen := by
  obtain ⟨f, hclick, hvalues⟩ := Option.bind_eq_some_iff.mp hvs
  obtain ⟨hsaves, -⟩ := Option.ite_none_right_eq_some.mp hvalues
  obtain ⟨e, c, hform, -, -, -, huntyped⟩ := h.form_of_saves hclick hsaves
  have htype : f.element.head.type = "submit" := by
    by_contra htype
    rw [Found.saves?, if_neg htype] at hsaves
    cases hsaves
  have hpush : p.push f = conclude (p.submit (Drawn.submission place c) (values [e])) := by
    rw [push, if_pos htype, hform]
    dsimp only
    rw [onSubmit_of_untyped huntyped]
  have hperform : p.perform d = p.push f := by
    rcases h.button_of_edits hclick (edits_of_saves hsaves) with ⟨-, ⟨n, rfl⟩ | ⟨label, rfl⟩⟩
    · have hfound : (buttons none p.content)[n]? = some f := hclick
      rw [perform, hfound]
    · have hfound : p.button? label = some f := hclick
      have hclicked : p.perform (.event (.click label)) = p.click label := rfl
      rw [hclicked, click, hfound]
  rw [hperform, hpush]
  exact ⟨rfl, rfl⟩

theorem inputsAt_refresh (h : Current s p) (hc : s.componentAt? place = some c)
    (hkind : c.kind = .form) (hscreen : p.state.screen = place.1) :
    inputsAt? p.refresh.1 place =
      some ((Drawn.fields c).map fun label => (p.state.saved? place label).getD (.text "")) := by
  obtain ⟨x, hx, -⟩ := h.exists_drawn
  have hcontent : p.refresh.1.content = Drawn.page s p.state x := by
    have hview : p.refresh.1.content = (view p.data p.state).1 := rfl
    rw [hview, h.data, view_toValue s p.state hx]
  have hcontrol : Drawn.control? p.state place c = some (Drawn.form p.state place c) := by
    rw [Drawn.control?, hkind]
  rw [componentAt_eq hscreen hx] at hc
  have hmem := (mem_controls_page_iff p.state (s := s)).mpr ⟨hscreen.symm, c, hc, hcontrol⟩
  rw [inputsAt?, hcontent, lookup_of_mem (nodup_controls_page p.state s x) hmem, Option.map_some,
    values_form]

end Current

section Submitter

variable {es : List Element} {f : Element.Found}

theorem mem_foundAll_of_mem {e : Element} (he : e ∈ es) (hf : f ∈ foundAll none [e]) :
    f ∈ foundAll none es := by
  obtain ⟨before, after, rfl⟩ := List.append_of_mem he
  have hsplit : before ++ e :: after = before ++ ([e] ++ after) := rfl
  rw [hsplit, foundAll_append, foundAll_append]
  exact List.mem_append_right _ (List.mem_append_left _ hf)

theorem mem_foundAll_box {tag className : String} (htag : tag ≠ "FORM") (hf : f ∈ foundAll none es) :
    f ∈ foundAll none [View.node tag className es] := by
  have hinside : (if tag = "FORM" then some (View.node tag className es) else none) = none :=
    if_neg htag
  rw [View.node, foundAll, foundAll, List.append_nil, found]
  refine List.mem_cons_of_mem _ ?_
  rw [View.node] at hinside
  rwa [hinside]

def submitter (st : State) (place : Place) (c : Component) : Element.Found :=
  ⟨button (buttonClass true) "submit" (Drawn.submitLabel c) none, some (Drawn.form st place c)⟩

theorem submitter_mem_component (st : State) (place : Place) {c : Component}
    (hkind : c.kind = .form) :
    submitter st place c ∈ foundAll none [Drawn.component st place c] := by
  have hspecial : Drawn.form st place c ∈ Drawn.special st place c := by
    rw [Drawn.special, hkind]
    exact List.mem_singleton_self _
  have hform : submitter st place c ∈ foundAll none [Drawn.form st place c] := by
    have hrows : (Drawn.form st place c).children =
        ((Drawn.fields c).zipIdx.map fun q => Drawn.field st place q.1 q.2) ++
          [button (buttonClass true) "submit" (Drawn.submitLabel c) none] := rfl
    have hfound : foundAll none [Drawn.form st place c] = ⟨Drawn.form st place c, none⟩ ::
        foundAll (some (Drawn.form st place c)) (Drawn.form st place c).children := by
      rw [foundAll, foundAll, List.append_nil]
      rfl
    rw [hfound, hrows, foundAll_append]
    exact List.mem_cons_of_mem _ (List.mem_append_right _ (List.mem_singleton_self _))
  refine mem_foundAll_box (by decide) (mem_foundAll_of_mem ?_ hform)
  exact List.mem_append_left _ (List.mem_append_right _ hspecial)

theorem submitter_mem_page (s : Spec) (st : State) {x : Screen} {place : Place} {c : Component}
    (hc : x.components[place.2]? = some c) (hscreen : st.screen = place.1) (hkind : c.kind = .form) :
    submitter st place c ∈ buttons none (Drawn.page s st x) := by
  have hcomponent : Drawn.component st place c ∈ Drawn.components st x st.screen := by
    refine List.mem_map.mpr ⟨(c, place.2), List.mem_zipIdx_iff_getElem?.mpr hc, ?_⟩
    rw [hscreen]
  have hblocks : submitter st place c ∈ foundAll none
      [node "DIV" "screen__components" (Drawn.components st x st.screen)] :=
    mem_foundAll_box (by decide)
      (mem_foundAll_of_mem hcomponent (submitter_mem_component st place hkind))
  have hmain : submitter st place c ∈ foundAll none
      [node "MAIN" "main" [Drawn.screen st x st.screen]] := by
    refine mem_foundAll_box (by decide) (mem_foundAll_box (by decide) ?_)
    exact mem_foundAll_of_mem (List.mem_append_right _ (List.mem_singleton_self _)) hblocks
  refine List.mem_filter.mpr ⟨mem_foundAll_of_mem ?_ hmain, isButton_button _ _ _ _⟩
  exact List.mem_cons_of_mem _ List.mem_cons_self

end Submitter

theorem Current.exists_submission {s : Spec} {p : Page} {place : Place} {c : Component}
    (h : Current s p) (hc : s.componentAt? place = some c) (hkind : c.kind = .form)
    (hscreen : p.state.screen = place.1) :
    ∃ (n : Nat) (vs : List Held), (Deed.push n).submission? p place = some vs := by
  obtain ⟨x, hx, hcontent⟩ := h.exists_drawn
  rw [componentAt_eq hscreen hx] at hc
  have hmem := List.mem_map_of_mem (f := Found.untyped)
    (submitter_mem_page s p.state hc hscreen hkind)
  rw [← hcontent.map_untyped_buttons, List.mem_map] at hmem
  obtain ⟨⟨element, form⟩, hf, huntyped⟩ := hmem
  obtain ⟨helement, hform⟩ := Found.mk.inj huntyped
  obtain rfl : element = (submitter p.state place c).element := (isPlain_button _ _ _ _).eq helement
  obtain ⟨e, rfl, he⟩ := Option.map_eq_some_iff.mp hform
  obtain ⟨n, hn⟩ := List.mem_iff_getElem?.mp hf
  have hsaves : Found.saves? ⟨(submitter p.state place c).element, some e⟩ = some place := by
    have hto : Found.saves? ⟨(submitter p.state place c).element, some e⟩ = savesTo? e := rfl
    rw [hto, savesTo?, onSubmit_of_untyped he]
    rfl
  have hclick : (Deed.push n).clicked? p = some ⟨(submitter p.state place c).element, some e⟩ := hn
  refine ⟨n, values [e], ?_⟩
  rw [Deed.submission?, hclick, Option.bind_some, if_pos hsaves]
  rfl

section Shown

variable {s : Spec} {ds : List Deed} {place : Place} {c : Component} {d : Deed} {vs : List Held}

def shownInputs (c : Component) (vs : List Held) : List Held :=
  (Drawn.fields c).map (restored (Drawn.fields c) vs)

theorem inputsAt_of_last (hc : s.complete.componentAt? place = some c) (hkind : c.kind = .form)
    (hlast : (submissions place (history s ds)).getLast? = some vs)
    (hscreen : (Session.after s ds).page.state.screen = place.1) :
    inputsAt? (Session.after s ds).page.refresh.1 place = some (shownInputs c vs) := by
  have hforms := forms_after hc ds
  rw [hlast, Option.map_some] at hforms
  rw [(sound_after s ds).current.inputsAt_refresh hc hkind hscreen, shownInputs]
  refine congrArg some (List.map_congr_left fun label _ => ?_)
  rw [State.saved?, hforms, Option.bind_some, restored]
  split <;> rfl

theorem submissions_concat (hvs : d.submission? (Session.after s ds).page place = some vs) :
    submissions place (history s (ds ++ [d])) = submissions place (history s ds) ++ [vs] := by
  rw [history_concat, submissions, List.filterMap_append, List.filterMap_cons, hvs]
  rfl

theorem inputsAt_of_submission (hvs : d.submission? (Session.after s ds).page place = some vs)
    (hc : s.complete.componentAt? place = some c) (hkind : c.kind = .form)
    (hscreen : (Session.after s ds).page.state.screen = place.1) :
    inputsAt? (Session.after s (ds ++ [d])).page place = some (shownInputs c vs) := by
  have hconcat : (Session.after s (ds ++ [d])).page = ((Session.after s ds).page.perform d).1 := by
    rw [Session.after, Session.performAll, List.foldl_append]
    rfl
  have hlast : (submissions place (history s (ds ++ [d]))).getLast? = some vs := by
    rw [submissions_concat hvs, List.getLast?_concat]
  obtain ⟨hcontent, hsame⟩ := (sound_after s ds).current.content_of_submission hvs
  rw [← hconcat] at hcontent hsame
  have hshown := inputsAt_of_last hc hkind hlast (hsame.trans hscreen)
  rw [inputsAt?, ← hcontent] at hshown
  exact hshown

end Shown

/-- A form that is shown has an input for each of its labels and a button that submits it. Whatever
the inputs hold, this is what is submitted; and from then on the form shows, whenever it is shown
anew before the next submission, the last value under each label, and the text of an object under
the label that keeps nothing. So what was submitted comes back in its place exactly if it is
restorable. -/
theorem shown_after_submission (s : Spec) (ds : List Deed) {place : Place} {c : Component}
    (hc : s.complete.componentAt? place = some c) (hkind : c.kind = .form)
    (hscreen : (Session.after s ds).page.state.screen = place.1) :
    ∃ vs, inputsAt? (Session.after s ds).page place = some vs ∧
      vs.length = (Drawn.fields c).length ∧
      (∃ n, (Deed.push n).submission? (Session.after s ds).page place = some vs) ∧
      (∀ d : Deed, d.submission? (Session.after s ds).page place ≠ none →
        d.submission? (Session.after s ds).page place = some vs ∧
        inputsAt? (Session.after s (ds ++ [d])).page place = some (shownInputs c vs) ∧
        ∀ later, submissions place (history s (ds ++ [d] ++ later)) =
            submissions place (history s (ds ++ [d])) →
          (Session.after s (ds ++ [d] ++ later)).page.state.screen = place.1 →
          inputsAt? (Session.after s (ds ++ [d] ++ later)).page.refresh.1 place =
            some (shownInputs c vs)) ∧
      (shownInputs c vs = vs ↔ Restorable (Drawn.fields c) vs) := by
  have hcurrent := (sound_after s ds).current
  obtain ⟨n, vs, hvs⟩ := hcurrent.exists_submission hc hkind hscreen
  have hheld {d : Deed} {ws : List Held}
      (hws : d.submission? (Session.after s ds).page place = some ws) :
      ws.length = (Drawn.fields c).length ∧ inputsAt? (Session.after s ds).page place = some ws := by
    obtain ⟨c', hc', -, hlength, hinputs⟩ := hcurrent.inputs_of_submission hws
    obtain rfl := Option.some.inj (hc.symm.trans hc')
    exact ⟨hlength, hinputs⟩
  obtain ⟨hlength, hinputs⟩ := hheld hvs
  refine ⟨vs, hinputs, hlength, ⟨n, hvs⟩, fun d hd => ?_, map_restored_eq_iff hlength⟩
  obtain ⟨ws, hws⟩ := Option.ne_none_iff_exists'.mp hd
  obtain rfl : ws = vs := Option.some.inj ((hheld hws).2.symm.trans hinputs)
  refine ⟨hws, inputsAt_of_submission hws hc hkind hscreen, fun later hlater hshown => ?_⟩
  refine inputsAt_of_last hc hkind ?_ hshown
  rw [hlater, submissions_concat hws, List.getLast?_concat]

theorem content_fill {p : Page} {n : Nat} (h : n < (inputs p.content).length) (text : String) :
    (p.perform (.event (.fill n text))).1.content = (fillAll (.text text) (some n) p.content).1 := by
  rw [perform, step, if_pos h]

def errandsTyped : List Deed := [.event (.fill 0 "Rome")]

theorem content_errandsTyped :
    (Session.after errands errandsTyped).page.content =
      (fillAll (.text "Rome") (some 0) (Drawn.page errands.complete {} errands.keyScreens[0])).1 := by
  have hcontent := content_start errands (x := errands.keyScreens[0]) rfl
  have hinput : 0 < (inputs (Session.after errands []).page.content).length := by
    rw [hcontent]
    decide
  have hfill := content_fill hinput "Rome"
  rw [hcontent] at hfill
  exact hfill

theorem shown_after_submission_errands :
    ∃ n, (Deed.push n).submission? (Session.after errands errandsTyped).page (0, 1) =
        some [.text "Rome"] ∧
      inputsAt? (Session.after errands (errandsTyped ++ [.push n])).page (0, 1) =
        some [.text "Rome"] := by
  have hform : errands.complete.componentAt? (0, 1) =
      some { kind := .form, fields := some ["City"] } := rfl
  have hscreen : (Session.after errands errandsTyped).page.state.screen = 0 := by
    rw [state_after]
    rfl
  have htyped : inputsAt? (Session.after errands errandsTyped).page (0, 1) =
      some [.text "Rome"] := by
    rw [inputsAt?, content_errandsTyped]
    rfl
  obtain ⟨vs, hinputs, hlength, ⟨n, hn⟩, hdeeds, hiff⟩ :=
    shown_after_submission errands errandsTyped hform rfl hscreen
  obtain rfl := Option.some.inj (htyped.symm.trans hinputs)
  obtain ⟨-, hshown, -⟩ := hdeeds (.push n) (by rw [hn]; nofun)
  have hrestorable := restorable_of_nodup hlength (by decide) (by decide)
  rw [hiff.mpr hrestorable] at hshown
  exact ⟨n, hn, hshown⟩

def twins : Spec where
  title := "Twins"
  summary := "Both names"
  keyScreens := [
    { name := "Home", goal := "Name them"
      components := [{ kind := .form, fields := some ["Name", "Name"] }] }]

def twinsTyped : List Deed := [.event (.fill 0 "Ann"), .event (.fill 1 "Bea")]

theorem content_twinsTyped :
    (Session.after twins twinsTyped).page.content = (fillAll (.text "Bea") (some 1)
      (fillAll (.text "Ann") (some 0) (Drawn.page twins.complete {} twins.keyScreens[0])).1).1 := by
  have hcontent := content_start twins (x := twins.keyScreens[0]) rfl
  have hfirst : 0 < (inputs (Session.after twins []).page.content).length := by
    rw [hcontent]
    decide
  have hfill := content_fill hfirst "Ann"
  have hsecond : 1 < (inputs ((Session.after twins []).page.perform
      (.event (.fill 0 "Ann"))).1.content).length := by
    rw [hfill, hcontent]
    decide
  have hfill' := content_fill hsecond "Bea"
  rw [hfill, hcontent] at hfill'
  exact hfill'

theorem submission_twins :
    (Deed.push 0).submission? (Session.after twins twinsTyped).page (0, 0) =
      some [.text "Ann", .text "Bea"] := by
  have hclicked : (Deed.push 0).clicked? (Session.after twins twinsTyped).page =
      (buttons none (Session.after twins twinsTyped).page.content)[0]? := rfl
  rw [Deed.submission?, hclicked, content_twinsTyped]
  rfl

theorem screen_twins : (Session.after twins twinsTyped).page.state.screen = 0 := by
  rw [state_after]
  rfl

/-- Of two values under one label the first one is lost. -/
theorem repeated_label_loses_value :
    (Deed.push 0).submission? (Session.after twins twinsTyped).page (0, 0) =
        some [.text "Ann", .text "Bea"] ∧
      inputsAt? (Session.after twins (twinsTyped ++ [.push 0])).page (0, 0) =
        some [.text "Bea", .text "Bea"] := by
  have hform : twins.complete.componentAt? (0, 0) =
      some { kind := .form, fields := some ["Name", "Name"] } := rfl
  exact ⟨submission_twins, inputsAt_of_submission submission_twins hform rfl screen_twins⟩

end Mockup.Page
