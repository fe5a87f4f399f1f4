import Mockup.Page.Element

/-! Finding elements. What is found in the parts of a page is found in the whole, in the same order,
and texts typed into inputs change nothing of what is found but the values of the inputs. -/

namespace Mockup.Page

namespace Element

theorem foundAll_append (form : Option Element) (es fs : List Element) :
    foundAll form (es ++ fs) = foundAll form es ++ foundAll form fs := by
  induction es with
  | nil => rfl
  | cons e es ih => rw [List.cons_append, foundAll, foundAll, ih, List.append_assoc]

mutual

theorem map_element_found (form : Option Element) :
    (e : Element) → (found form e).map Found.element = e :: all e.children
  | node h cs => by
    rw [found, List.map_cons, map_element_foundAll]
    rfl

theorem map_element_foundAll (form : Option Element) :
    (es : List Element) → (foundAll form es).map Found.element = all es
  | [] => rfl
  | e :: es => by
    have hhead : (found form e).map Found.element = (found none e).map Found.element := by
      rw [map_element_found form e, map_element_found none e]
    rw [foundAll, List.map_append, hhead, map_element_foundAll form es, all, all, foundAll,
      List.map_append]

end

@[simp] theorem all_nil : all [] = [] := rfl

@[simp] theorem all_cons (e : Element) (es : List Element) :
    all (e :: es) = e :: (all e.children ++ all es) := by
  rw [all, foundAll, List.map_append, map_element_found]
  rfl

@[simp] theorem all_append (es fs : List Element) : all (es ++ fs) = all es ++ all fs := by
  rw [all, foundAll_append, List.map_append]
  rfl

def buttons (form : Option Element) (es : List Element) : List Found :=
  (foundAll form es).filter fun f => f.element.isButton

end Element

def Head.untyped (h : Head) : Head := if h.tag = "INPUT" then { h with value := .text "" } else h

namespace Head

@[simp] theorem tag_untyped (h : Head) : h.untyped.tag = h.tag := by
  unfold untyped
  split <;> rfl

@[simp] theorem className_untyped (h : Head) : h.untyped.className = h.className := by
  unfold untyped
  split <;> rfl

@[simp] theorem onSubmit_untyped (h : Head) : h.untyped.onSubmit = h.onSubmit := by
  unfold untyped
  split <;> rfl

@[simp] theorem onClick_untyped (h : Head) : h.untyped.onClick = h.onClick := by
  unfold untyped
  split <;> rfl

theorem untyped_eq_self {h : Head} (hinput : h.tag ≠ "INPUT") : h.untyped = h := if_neg hinput

theorem untyped_withValue (h : Head) (value : Held) (hinput : h.tag = "INPUT") :
    ({ h with value } : Head).untyped = h.untyped := by
  rw [untyped, untyped, if_pos hinput, if_pos hinput]

end Head

namespace Element

mutual

def untyped : Element → Element
  | node h cs => node h.untyped (untypedAll cs)

def untypedAll : List Element → List Element
  | [] => []
  | e :: es => untyped e :: untypedAll es

end

theorem untypedAll_eq_map (es : List Element) : untypedAll es = es.map untyped := by
  induction es with
  | nil => rfl
  | cons e es ih => rw [untypedAll, ih, List.map_cons]

theorem head_untyped (e : Element) : e.untyped.head = e.head.untyped := by
  cases e
  rfl

theorem onSubmit_eq {e e' : Element} (h : e.untyped = e'.untyped) :
    e.head.onSubmit = e'.head.onSubmit := by
  rw [← e.head.onSubmit_untyped, ← head_untyped, h, head_untyped, Head.onSubmit_untyped]

def Found.untyped (f : Found) : Found := ⟨f.element.untyped, f.form.map Element.untyped⟩

theorem fill_node (value : Held) (number : Option Nat) (h : Head) (cs : List Element) :
    ∃ h' number', h'.untyped = h.untyped ∧
      (fill value number (node h cs)).1 = node h' (fillAll value number' cs).1 := by
  unfold fill
  by_cases hinput : h.tag = "INPUT"
  · rw [if_pos hinput]
    match number with
    | none => exact ⟨h, none, rfl, rfl⟩
    | some 0 => exact ⟨{ h with value }, none, h.untyped_withValue value hinput, rfl⟩
    | some (n + 1) => exact ⟨h, some n, rfl, rfl⟩
  · rw [if_neg hinput]
    exact ⟨h, number, rfl, rfl⟩

mutual

theorem untyped_fill (value : Held) (number : Option Nat) :
    (e : Element) → (fill value number e).1.untyped = e.untyped
  | node h cs => by
    obtain ⟨h', number', hhead, hfill⟩ := fill_node value number h cs
    rw [hfill, untyped, untyped, hhead, untypedAll_fillAll value number' cs]

theorem untypedAll_fillAll (value : Held) (number : Option Nat) :
    (es : List Element) → untypedAll (fillAll value number es).1 = untypedAll es
  | [] => rfl
  | e :: es => by
    rw [fillAll, untypedAll, untypedAll, untyped_fill value number e,
      untypedAll_fillAll value _ es]

end

mutual

theorem found_untyped (form : Option Element) :
    (e : Element) → (found form e).map Found.untyped = found (form.map untyped) e.untyped
  | node h cs => by
    rw [untyped, found, found, List.map_cons, foundAll_untyped, Head.tag_untyped]
    have hform : (if h.tag = "FORM" then some (node h cs) else form).map untyped =
        if h.tag = "FORM" then some (node h.untyped (untypedAll cs)) else form.map untyped := by
      split <;> rfl
    rw [hform]
    rfl

theorem foundAll_untyped (form : Option Element) :
    (es : List Element) →
      (foundAll form es).map Found.untyped = foundAll (form.map untyped) (untypedAll es)
  | [] => rfl
  | e :: es => by
    rw [untypedAll, foundAll, foundAll, List.map_append, found_untyped, foundAll_untyped]

end

theorem map_untyped_all (es : List Element) : (all es).map untyped = all (untypedAll es) := by
  have hfound := foundAll_untyped none es
  rw [Option.map_none] at hfound
  rw [all, all, ← hfound, List.map_map, List.map_map]
  rfl

theorem map_untyped_withClass (name : String) (es : List Element) :
    (withClass name es).map untyped = withClass name (untypedAll es) := by
  rw [withClass, withClass, ← map_untyped_all, List.filter_map]
  refine congrArg _ (List.filter_congr fun e _ => ?_)
  rw [Function.comp_apply, hasClass, hasClass, head_untyped, Head.className_untyped]

theorem map_untyped_inputs (es : List Element) :
    (inputs es).map untyped = inputs (untypedAll es) := by
  rw [inputs, inputs, ← map_untyped_all, List.filter_map]
  refine congrArg _ (List.filter_congr fun e _ => ?_)
  rw [Function.comp_apply, isInput, isInput, head_untyped, Head.tag_untyped]

/-- The elements differ at most in what is typed into inputs. -/
def Retyped (es fs : List Element) : Prop := untypedAll es = untypedAll fs

def IsPlain (e : Element) : Prop := e.children = [] ∧ e.head.tag ≠ "INPUT"

theorem IsPlain.eq {e e' : Element} (h : IsPlain e) (heq : e'.untyped = e.untyped) : e' = e := by
  obtain ⟨hd, cs⟩ := e
  obtain ⟨hd', cs'⟩ := e'
  obtain ⟨rfl : cs = [], hinput : hd.tag ≠ "INPUT"⟩ := h
  rw [untyped, untyped, node.injEq, untypedAll_eq_map, untypedAll] at heq
  obtain ⟨hhead, hchildren⟩ := heq
  have htag : hd'.tag = hd.tag := by
    rw [← hd'.tag_untyped, hhead, hd.tag_untyped]
  have hinput' : hd'.tag ≠ "INPUT" := by rwa [htag]
  rw [Head.untyped_eq_self hinput, Head.untyped_eq_self hinput'] at hhead
  rw [hhead, List.map_eq_nil_iff.mp hchildren]

theorem eq_of_map_untyped {es fs : List Element} (h : es.map untyped = fs.map untyped)
    (hplain : ∀ f ∈ fs, IsPlain f) : es = fs := by
  induction fs generalizing es with
  | nil => exact List.map_eq_nil_iff.mp h
  | cons f fs ih =>
    obtain ⟨hf, hfs⟩ := List.forall_mem_cons.mp hplain
    obtain ⟨e, es, rfl, he, hes⟩ := List.map_eq_cons_iff.mp h
    rw [hf.eq he, ih hes hfs]

namespace Retyped

variable {es fs gs : List Element}

theorem refl (es : List Element) : Retyped es es := rfl

theorem singleton {e e' : Element} (h : e.untyped = e'.untyped) : Retyped [e] [e'] := by
  rw [Retyped, untypedAll, untypedAll, h]
  rfl

theorem fillAll (h : Retyped es fs) (value : Held) (number : Option Nat) :
    Retyped (fillAll value number es).1 fs := by
  unfold Retyped
  rw [untypedAll_fillAll, h]

theorem withClass (h : Retyped es fs) {name : String}
    (hplain : ∀ f ∈ withClass name fs, IsPlain f) :
    Element.withClass name es = Element.withClass name fs := by
  refine eq_of_map_untyped ?_ hplain
  rw [map_untyped_withClass, map_untyped_withClass, h]

theorem map_untyped_buttons (h : Retyped es fs) :
    (buttons none es).map Found.untyped = (buttons none fs).map Found.untyped := by
  have huntyped (gs : List Element) :
      (buttons none gs).map Found.untyped = buttons none (untypedAll gs) := by
    have hfound := foundAll_untyped none gs
    rw [Option.map_none] at hfound
    rw [buttons, buttons, ← hfound, List.filter_map]
    refine congrArg _ (List.filter_congr fun f _ => ?_)
    rw [Function.comp_apply, Found.untyped, isButton, isButton, head_untyped, Head.tag_untyped,
      Head.className_untyped]
  rw [huntyped, huntyped, h]

end Retyped

end Element

end Mockup.Page
