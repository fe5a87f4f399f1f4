import Mockup.Bundle.Basic
import Mockup.Proofs.Bundle.Outline

/-! The sections of an outline, read off its tags. A rendering is compared by what a visitor is told
in it: the headings of its sections, and for each block of a section its kind, its titles, its
descriptions and its buttons. -/

namespace Mockup

structure Component.Rendering where
  kind : String
  titles : List String := []
  descriptions : List String := []
  buttons : List String := []
deriving DecidableEq

structure Screen.Rendering where
  heading : String
  components : List Component.Rendering
deriving DecidableEq

def Component.rendering (c : Component) : Component.Rendering :=
  ⟨c.kind.name, c.title.toList, c.description.toList, c.actions⟩

def Screen.rendering (x : Screen) : Screen.Rendering :=
  ⟨x.name, x.components.map Component.rendering⟩

namespace Markup

inductive Mark where
  | screen
  | heading
  | block (kind : String)
  | title
  | description
  | button
  | other
deriving DecidableEq

def blockTag : List Char := "div class=\"component component--".toList

def markOf (tag : List Char) : Mark :=
  if tag = "section class=\"screen\"".toList then .screen
  else if tag = "h2".toList then .heading
  else if tag = "h3".toList then .title
  else if tag = "p".toList then .description
  else if nameOf tag = "button".toList then .button
  else if blockTag.isPrefixOf tag then
    .block (String.ofList ((tag.drop blockTag.length).takeWhile (· ≠ '"')))
  else .other

/-- What is read of an outline from its end: the sections, and the parts of a section and of a block
whose tag is still to come. -/
structure Reading where
  sections : List Screen.Rendering := []
  heading : String := ""
  blocks : List Component.Rendering := []
  titles : List String := []
  descriptions : List String := []
  buttons : List String := []

def Reading.mark (r : Reading) (text : String) : Mark → Reading
  | .screen => { sections := ⟨r.heading, r.blocks⟩ :: r.sections }
  | .heading => { r with heading := text }
  | .block kind =>
    { r with
      blocks := ⟨kind, r.titles, r.descriptions, r.buttons⟩ :: r.blocks
      titles := [], descriptions := [], buttons := [] }
  | .title => { r with titles := text :: r.titles }
  | .description => { r with descriptions := text :: r.descriptions }
  | .button => { r with buttons := text :: r.buttons }
  | .other => r

def readSegments (segments : List Segment) : Reading :=
  segments.foldr (fun s r => r.mark (String.ofList (Html.unescape s.text)) (markOf s.tag)) {}

def sectionsOf (markup : String) : List Screen.Rendering :=
  (readSegments (split markup.toList).2).sections

open Piece

/-- Pieces that take one reading to another. -/
def Reads (ps : List Piece) (r r' : Reading) : Prop :=
  ∀ qs, readSegments (segments qs).2 = r → readSegments (segments (ps ++ qs)).2 = r'

namespace Reads

variable {ps qs : List Piece} {r r' r'' : Reading} {e x : String} {a : List Attribute}

theorem nil : Reads [] r r := fun _ h => h

theorem append (h : Reads ps r' r'') (h' : Reads qs r r') : Reads (ps ++ qs) r r'' := by
  intro rest hrest
  rw [List.append_assoc]
  exact h _ (h' rest hrest)

theorem cons {p : Piece} (h : Reads [p] r' r'') (h' : Reads qs r r') : Reads (p :: qs) r r'' :=
  append h h'

theorem tag {p : Piece} {tag : List Char} (htag : p.tag? = some tag)
    (hmark : ∀ text, r.mark text (markOf tag) = r') : Reads [p] r r' := by
  intro rest hrest
  rw [List.singleton_append, segments, htag]
  rw [readSegments] at hrest
  rw [readSegments, List.foldr_cons, hrest]
  exact hmark _

theorem other {p : Piece} (hother : ∀ tag ∈ p.tag?, markOf tag = .other) : Reads [p] r r := by
  cases htag : p.tag? with
  | none =>
    intro rest hrest
    rw [List.singleton_append, segments, htag]
    exact hrest
  | some tag =>
    refine Reads.tag htag fun text => ?_
    rw [hother tag htag]
    rfl

theorem others (hothers : ∀ p ∈ ps, ∀ tag ∈ p.tag?, markOf tag = .other) : Reads ps r r := by
  induction ps with
  | nil => exact nil
  | cons p ps ih =>
    obtain ⟨hp, hps⟩ := List.forall_mem_cons.mp hothers
    exact (other hp).cons (ih hps)

theorem element (hclosing : markOf ('/' :: e.toList) = .other) :
    Reads [opening e a, .text x, closing e] r
      (r.mark x (markOf (e.toList ++ a.flatMap Attribute.source))) := by
  intro rest hrest
  have hsegments : (segments ([opening e a, .text x, closing e] ++ rest)).2 =
      ⟨e.toList ++ a.flatMap Attribute.source, Html.escape x.toList ++ []⟩ ::
        ⟨'/' :: e.toList, (segments rest).1⟩ :: (segments rest).2 := rfl
  rw [readSegments] at hrest
  rw [hsegments, readSegments, List.foldr_cons, List.foldr_cons, hrest, hclosing,
    List.append_nil, Html.unescape_escape, String.ofList_toList]
  rfl

theorem flatMap {α : Type} {f : α → List Piece} {g : List α → Reading}
    (h : ∀ x xs, Reads (f x) (g xs) (g (x :: xs))) (xs : List α) :
    Reads (xs.flatMap f) (g []) (g xs) := by
  induction xs with
  | nil => exact nil
  | cons x xs ih => exact (h x xs).append ih

theorem line (hclosing : markOf ('/' :: e.toList) = .other) :
    Reads (Markup.line (opening e a) e x) r
      (r.mark x (markOf (e.toList ++ a.flatMap Attribute.source))) :=
  (element hclosing).append (other nofun)

theorem otherLine (hclosing : markOf ('/' :: e.toList) = .other)
    (hopening : markOf (e.toList ++ a.flatMap Attribute.source) = .other) :
    Reads (Markup.line (opening e a) e x) r r := by
  have hline := line (r := r) (x := x) (a := a) hclosing
  rwa [hopening] at hline

end Reads

section Parts

variable (ss : List Screen.Rendering) (bs : List Component.Rendering)

theorem reads_listOf {r : Reading} (items : List String) : Reads (listOf items) r r := by
  rw [listOf_eq]
  cases items with
  | nil => exact .nil
  | cons x items =>
    have hitem (y : String) : Reads [opening "li" [], .text y, closing "li"] r r := by
      have helement := Reads.element (r := r) (e := "li") (a := []) (x := y) (by decide)
      have hmark : markOf ("li".toList ++ [].flatMap Attribute.source) = .other := by decide
      rwa [hmark] at helement
    have hitems := Reads.flatMap (g := fun _ => r) (fun y _ => hitem y) (x :: items)
    exact .cons (.other (by decide)) (hitems.append (.others (by decide)))

theorem reads_buttons (actions : List String) :
    Reads (buttons actions) { sections := ss, blocks := bs }
      { sections := ss, blocks := bs, buttons := actions } := by
  rw [buttons_eq]
  cases actions with
  | nil => exact .nil
  | cons x actions =>
    have hbutton (y : String) (ys : List String) :
        Reads [opening "button" [attr "type" "button", ⟨"disabled", none⟩], .text y,
          closing "button"] { sections := ss, blocks := bs, buttons := ys }
          { sections := ss, blocks := bs, buttons := y :: ys } := by
      have helement := Reads.element (r := { sections := ss, blocks := bs, buttons := ys })
        (e := "button") (a := [attr "type" "button", ⟨"disabled", none⟩]) (x := y) (by decide)
      have hmark : markOf ("button".toList ++
          [attr "type" "button", ⟨"disabled", none⟩].flatMap Attribute.source) = .button := by
        decide
      rwa [hmark] at helement
    have hbuttons := Reads.flatMap hbutton (x :: actions)
    exact .cons (.other (by decide)) (hbuttons.append (.others (by decide)))

theorem reads_descriptionOf (c : Component) (buttons : List String) :
    Reads (descriptionOf c) { sections := ss, blocks := bs, buttons }
      { sections := ss, blocks := bs, descriptions := c.description.toList, buttons } := by
  unfold descriptionOf
  cases c.description with
  | none => exact .nil
  | some text => exact .line (by decide)

theorem reads_titleOf (c : Component) (descriptions buttons : List String) :
    Reads (titleOf c) { sections := ss, blocks := bs, descriptions, buttons }
      { sections := ss, blocks := bs, titles := c.title.toList, descriptions, buttons } := by
  unfold titleOf
  cases c.title with
  | none => exact .nil
  | some text => exact .line (by decide)

theorem markOf_component (k : Kind) :
    markOf ("div".toList ++ [attr "class" ("component component--" ++ k.name)].flatMap
      Attribute.source) = .block k.name := by
  cases k <;> decide

theorem reads_component (c : Component) :
    Reads (component c) { sections := ss, blocks := bs }
      { sections := ss, blocks := c.rendering :: bs } := by
  -- the tag of the block is read last, when all of its parts are known
  have hopening : Reads [withClass "div" ("component component--" ++ c.kind.name)]
      { sections := ss, blocks := bs, titles := c.title.toList
        descriptions := c.description.toList, buttons := c.actions }
      { sections := ss, blocks := c.rendering :: bs } := by
    refine Reads.tag rfl fun text => ?_
    rw [markOf_component]
    rfl
  have hclosing : Reads [closing "div", .lineBreak] { sections := ss, blocks := bs }
      { sections := ss, blocks := bs } := .others (by decide)
  have htitle := reads_titleOf ss bs c c.description.toList c.actions
  have hdescription := reads_descriptionOf ss bs c c.actions
  have hbuttons := reads_buttons ss bs c.actions
  have hinner := (((htitle.append hdescription).append (reads_listOf (c.fields.getD []))).append
    (reads_listOf (c.sampleItems.getD []))).append hbuttons
  exact .cons hopening (.cons (.other nofun) (hinner.append hclosing))

theorem reads_screen (x : Screen) :
    Reads (screen x) { sections := ss } { sections := x.rendering :: ss } := by
  have hopening : Reads [withClass "section" "screen"]
      { sections := ss, heading := x.name, blocks := x.components.map Component.rendering }
      { sections := x.rendering :: ss } := by
    refine Reads.tag rfl fun text => ?_
    have hmark : markOf ("section".toList ++
        [attr "class" "screen"].flatMap Attribute.source) = .screen := by decide
    rw [hmark]
    rfl
  have hheading : Reads (line (opening "h2" []) "h2" x.name)
      { sections := ss, blocks := x.components.map Component.rendering }
      { sections := ss, heading := x.name
        blocks := x.components.map Component.rendering } := .line (by decide)
  have hcomponents := Reads.flatMap (f := component)
    (g := fun cs => { sections := ss, blocks := cs.map Component.rendering })
    (fun c cs => reads_component ss (cs.map Component.rendering) c) x.components
  have hclosing : Reads [closing "section", .lineBreak] { sections := ss } { sections := ss } :=
    .others (by decide)
  have hgoal : Reads (line (withClass "p" "screen__goal") "p" x.goal)
      { sections := ss, blocks := x.components.map Component.rendering }
      { sections := ss, blocks := x.components.map Component.rendering } :=
    .otherLine (by decide) (by decide)
  have hinner := ((hheading.append hgoal).append hcomponents).append hclosing
  exact .cons hopening (.cons (.other nofun) hinner)

end Parts

theorem reads_summaryOf (s : Spec) {r : Reading} : Reads (summaryOf s) r r := by
  unfold summaryOf
  split
  · exact .nil
  · exact .otherLine (by decide) (by decide)

theorem reads_outline (s : Spec) :
    Reads (outline s) {} { sections := s.keyScreens.map Screen.rendering } := by
  have hscreens := Reads.flatMap (f := screen)
    (g := fun xs => { sections := xs.map Screen.rendering })
    (fun x xs => reads_screen (xs.map Screen.rendering) x) s.keyScreens
  have hclosing : Reads [closing "main", .lineBreak, closing "noscript", .lineBreak] {} {} :=
    .others (by decide)
  have hbody := ((reads_summaryOf s).append hscreens).append hclosing
  have htitle : Reads (line (opening "h1" []) "h1" s.title)
      { sections := s.keyScreens.map Screen.rendering }
      { sections := s.keyScreens.map Screen.rendering } := .otherLine (by decide) (by decide)
  have hopening : Reads [opening "noscript" [], .lineBreak, withClass "main" "outline", .lineBreak]
      { sections := s.keyScreens.map Screen.rendering }
      { sections := s.keyScreens.map Screen.rendering } :=
    .others (by decide)
  have houtline := hopening.append (htitle.append hbody)
  simpa [outline] using houtline

theorem reads_pieces (s : Spec) :
    Reads (pieces s) {} { sections := s.keyScreens.map Screen.rendering } := by
  have htitle {r : Reading} : Reads (line (opening "title" []) "title" s.title) r r :=
    .otherLine (by decide) (by decide)
  have hhead {r : Reading} : Reads (head s) r r :=
    .append (.append (.others (by decide)) htitle) (.others (by decide))
  have hbody : Reads (body s) {} { sections := s.keyScreens.map Screen.rendering } :=
    .append (.append (.others (by decide)) (reads_outline s)) (.others (by decide))
  have hclosing : Reads [closing "html", .lineBreak] {} {} := .others (by decide)
  exact (hhead.append hbody).append hclosing

theorem sectionsOf_render (s : Spec) :
    sectionsOf (render s) = s.keyScreens.map Screen.rendering := by
  have hread := reads_pieces s [] rfl
  rw [List.append_nil] at hread
  rw [sectionsOf, split_render, hread]

end Markup

end Mockup
