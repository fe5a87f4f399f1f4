import Mockup.Proofs.Bundle.Tags

/-! The outline of a specification. Its tags follow from the shape of the specification alone, they
are nested, and what stands between them is the texts of the specification, each in its place. -/

namespace Mockup

/-- All of a component that its tags may depend on. -/
structure Component.Shape where
  kind : Kind
  hasTitle : Bool
  hasDescription : Bool
  fields : Nat
  sampleItems : Nat
  actions : Nat
deriving DecidableEq

def Component.shape (c : Component) : Component.Shape :=
  ⟨c.kind, c.title.isSome, c.description.isSome, (c.fields.getD []).length,
    (c.sampleItems.getD []).length, c.actions.length⟩

def Screen.shape (s : Screen) : List Component.Shape := s.components.map Component.shape

structure Spec.Shape where
  hasSummary : Bool
  screens : List (List Component.Shape)
deriving DecidableEq

def Spec.shape (s : Spec) : Spec.Shape :=
  ⟨!Text.isBlankText s.summary, s.keyScreens.map Screen.shape⟩

def Component.told (c : Component) : List String :=
  c.title.toList ++ c.description.toList ++ c.fields.getD [] ++ c.sampleItems.getD [] ++ c.actions

def Screen.told (s : Screen) : List String :=
  s.name :: s.goal :: s.components.flatMap Component.told

def Spec.told (s : Spec) : List String :=
  s.title :: s.title :: ((if Text.isBlankText s.summary then [] else [s.summary]) ++
    s.keyScreens.flatMap Screen.told)

namespace Markup

open Piece

variable {ps qs : List Piece} {xs ys : List String} {e : String}

def tagsOf (ps : List Piece) : List (List Char) := ps.filterMap Piece.tag?

theorem tagsOf_append (ps qs : List Piece) : tagsOf (ps ++ qs) = tagsOf ps ++ tagsOf qs :=
  List.filterMap_append

/-- Pieces that can stand anywhere: they close what they open, and show some texts. -/
structure Block (ps : List Piece) (xs : List String) : Prop where
  isSealed : ∀ p ∈ ps, p.Sealed
  nested : ∀ opened rest, isNested opened (tagsOf ps ++ rest) = isNested opened rest
  tells : ∀ qs, contents (segments (ps ++ qs)).2 =
    (contents (segments qs).2).map (xs.map (fun x => Html.escape x.toList) ++ ·)

namespace Block

theorem nil : Block [] [] := ⟨nofun, fun _ _ => rfl, fun _ => Option.map_id'.symm⟩

theorem append (h : Block ps xs) (h' : Block qs ys) : Block (ps ++ qs) (xs ++ ys) where
  isSealed := List.forall_mem_append.mpr ⟨h.isSealed, h'.isSealed⟩
  nested opened rest := by
    rw [tagsOf_append, List.append_assoc, h.nested, h'.nested]
  tells rest := by
    rw [List.append_assoc, h.tells, h'.tells, Option.map_map, List.map_append]
    simp only [Function.comp_def, List.append_assoc]

theorem flatMap {α : Type} {f : α → List Piece} {g : α → List String} (h : ∀ x, Block (f x) (g x))
    (items : List α) : Block (items.flatMap f) (items.flatMap g) := by
  induction items with
  | nil => exact nil
  | cons x items ih =>
    rw [List.flatMap_cons, List.flatMap_cons]
    exact (h x).append ih

theorem lineBreak : Block [.lineBreak] [] :=
  ⟨by decide, fun _ _ => rfl, fun _ => Option.map_id'.symm⟩

end Block

def IsElement (e : String) : Prop :=
  ' ' ∉ e.toList ∧ '/' ∉ e.toList ∧ voidNames.contains e.toList = false

instance (e : String) : Decidable (IsElement e) := by
  unfold IsElement
  infer_instance

def isTelling (e : String) : Bool := tellingNames.contains e.toList

theorem nameOf_opening (h : IsElement e) (attributes : List Attribute) :
    nameOf (e.toList ++ attributes.flatMap Attribute.source) = e.toList := by
  have hall : ∀ c ∈ e.toList, decide (c ≠ ' ') = true := fun c hc => by
    simpa using ne_of_mem_of_not_mem hc h.1
  unfold nameOf
  rw [List.takeWhile_append_of_pos hall]
  rcases attributes with _ | ⟨⟨name, _ | value⟩, rest⟩ <;> simp [Attribute.source]

theorem isNested_opening (h : IsElement e) (attributes : List Attribute)
    (opened rest : List (List Char)) :
    isNested opened ((e.toList ++ attributes.flatMap Attribute.source) :: rest) =
      isNested (e.toList :: opened) rest := by
  have hname := nameOf_opening h attributes
  generalize htag : e.toList ++ attributes.flatMap Attribute.source = tag at hname ⊢
  rw [isNested]
  · rw [hname, h.2.2, if_neg Bool.false_ne_true]
  · -- the name would start with a slash
    rintro name rfl
    rw [nameOf] at hname
    exact h.2.1 (by rw [← hname]; simp)

theorem isNested_closing (name : List Char) (opened rest : List (List Char)) :
    isNested (name :: opened) (('/' :: name) :: rest) = isNested opened rest := by
  simp [isNested]

theorem contents_quiet {tag text : List Char} (h : tellingNames.contains (nameOf tag) = false)
    (rest : List Segment) : contents (⟨tag, text⟩ :: rest) = contents rest := by
  rw [contents.eq_def]
  dsimp only
  rw [h, if_neg Bool.false_ne_true]

theorem not_telling_closing (name : List Char) :
    tellingNames.contains (nameOf ('/' :: name)) = false := by
  have hname : nameOf ('/' :: name) = '/' :: nameOf name := by simp [nameOf]
  rw [hname, ← Bool.not_eq_true, List.contains_iff_mem]
  intro hmem
  have hhead : ∀ n ∈ tellingNames, n.head? ≠ some '/' := by decide
  exact hhead _ hmem rfl

def Proper (e : String) (attributes : List Attribute) : Prop :=
  IsElement e ∧ (opening e attributes).Sealed ∧ (closing e).Sealed

instance (e : String) (attributes : List Attribute) : Decidable (Proper e attributes) := by
  unfold Proper
  infer_instance

namespace Block

theorem void {p : Piece} {tag : List Char} (htag : p.tag? = some tag) (hsealed : p.Sealed)
    (hslash : tag.head? ≠ some '/') (hvoid : voidNames.contains (nameOf tag) = true)
    (hquiet : tellingNames.contains (nameOf tag) = false) : Block [p] [] where
  isSealed := List.forall_mem_singleton.mpr hsealed
  nested opened rest := by
    have htags : tagsOf [p] = [tag] := by simp [tagsOf, htag]
    rw [htags, List.singleton_append, isNested]
    · rw [hvoid, if_pos rfl]
    · rintro name rfl
      exact hslash rfl
  tells qs := by
    rw [List.singleton_append, segments, htag]
    exact (contents_quiet hquiet _).trans Option.map_id'.symm

theorem element {a : List Attribute} (he : Proper e a)
    (hquiet : isTelling e = false) (h : Block ps xs) :
    Block (opening e a :: (ps ++ [closing e, .lineBreak])) xs where
  isSealed := by
    refine List.forall_mem_cons.mpr ⟨he.2.1, List.forall_mem_append.mpr ⟨h.isSealed, ?_⟩⟩
    exact List.forall_mem_cons.mpr ⟨he.2.2, lineBreak.isSealed⟩
  nested opened rest := by
    -- the block inside closes what it opens, so the closing tag meets the tag of the element
    have htags : tagsOf (opening e a :: (ps ++ [closing e, .lineBreak])) =
        (e.toList ++ a.flatMap Attribute.source) :: (tagsOf ps ++ ['/' :: e.toList]) := by
      rw [← List.singleton_append, tagsOf_append, tagsOf_append]
      rfl
    rw [htags, List.cons_append, List.append_assoc, isNested_opening he.1, h.nested,
      List.singleton_append, isNested_closing]
  tells qs := by
    have hname : tellingNames.contains
        (nameOf (e.toList ++ a.flatMap Attribute.source)) = false := by
      rw [nameOf_opening he.1]
      exact hquiet
    rw [List.cons_append, segments, tag?, contents_quiet hname, List.append_assoc, h.tells]
    exact congrArg _ (contents_quiet (not_telling_closing _) _)

theorem telling {a : List Attribute} (he : Proper e a)
    (htelling : isTelling e = true) (x : String) :
    Block [opening e a, .text x, closing e] [x] where
  isSealed := by
    refine List.forall_mem_cons.mpr ⟨he.2.1, List.forall_mem_cons.mpr ⟨nofun, ?_⟩⟩
    exact List.forall_mem_singleton.mpr he.2.2
  nested opened rest := by
    have htags : tagsOf [opening e a, .text x, closing e] =
        [e.toList ++ a.flatMap Attribute.source, '/' :: e.toList] := rfl
    rw [htags, List.cons_append, isNested_opening he.1, List.singleton_append, isNested_closing]
  tells qs := by
    have hsegments : (segments ([opening e a, .text x, closing e] ++ qs)).2 =
        ⟨e.toList ++ a.flatMap Attribute.source, Html.escape x.toList ++ []⟩ ::
          ⟨'/' :: e.toList, (segments qs).1⟩ :: (segments qs).2 := rfl
    have hname := nameOf_opening he.1 a
    unfold isTelling at htelling
    rw [hsegments, contents, hname, if_pos htelling, List.append_nil]
    dsimp only
    rw [if_pos rfl, contents_quiet (not_telling_closing _)]
    rfl

theorem line {a : List Attribute} (he : Proper e a)
    (htelling : isTelling e = true) (x : String) :
    Block (Markup.line (opening e a) e x) [x] := (telling he htelling x).append lineBreak

end Block

def listing (outer : String) (a : List Attribute) (inner : String) (b : List Attribute) :
    List String → List Piece
  | [] => []
  | x :: xs => opening outer a ::
      ((x :: xs).flatMap (fun x => [opening inner b, .text x, closing inner]) ++
        [closing outer, .lineBreak])

theorem listOf_eq (items : List String) : listOf items = listing "ul" [] "li" [] items := by
  cases items <;> rfl

theorem buttons_eq (actions : List String) :
    buttons actions = listing "div" [attr "class" "component__actions"] "button"
      [attr "type" "button", ⟨"disabled", none⟩] actions := by
  cases actions <;> rfl

theorem block_listing {a b : List Attribute} {outer inner : String} (houter : Proper outer a)
    (hquiet : isTelling outer = false) (hinner : Proper inner b) (htelling : isTelling inner = true)
    (items : List String) : Block (listing outer a inner b items) items := by
  cases items with
  | nil => exact .nil
  | cons x items =>
    have hitems := Block.flatMap (Block.telling hinner htelling) (x :: items)
    rw [List.flatMap_singleton'] at hitems
    exact .element houter hquiet hitems

theorem block_listOf (items : List String) : Block (listOf items) items := by
  rw [listOf_eq]
  exact block_listing (by decide) (by decide) (by decide) (by decide) items

theorem block_buttons (actions : List String) : Block (buttons actions) actions := by
  rw [buttons_eq]
  exact block_listing (by decide) (by decide) (by decide) (by decide) actions

theorem block_titleOf (c : Component) : Block (titleOf c) c.title.toList := by
  unfold titleOf
  cases c.title with
  | none => exact .nil
  | some x => exact .line (by decide) (by decide) x

theorem block_descriptionOf (c : Component) : Block (descriptionOf c) c.description.toList := by
  unfold descriptionOf
  cases c.description with
  | none => exact .nil
  | some x => exact .line (by decide) (by decide) x

theorem proper_kind (k : Kind) :
    Proper "div" [attr "class" ("component component--" ++ k.name)] := by
  cases k <;> decide

theorem block_component (c : Component) : Block (component c) c.told := by
  have hinner := ((((block_titleOf c).append (block_descriptionOf c)).append
    (block_listOf (c.fields.getD []))).append (block_listOf (c.sampleItems.getD []))).append
      (block_buttons c.actions)
  exact .element (proper_kind c.kind) (by decide) (Block.lineBreak.append hinner)

theorem block_screen (s : Screen) : Block (screen s) s.told := by
  have hname : Block (line (opening "h2" []) "h2" s.name) [s.name] :=
    .line (by decide) (by decide) s.name
  have hgoal : Block (line (withClass "p" "screen__goal") "p" s.goal) [s.goal] :=
    .line (by decide) (by decide) s.goal
  have hinner := (hname.append hgoal).append (Block.flatMap block_component s.components)
  exact .element (by decide) (by decide) (Block.lineBreak.append hinner)

theorem block_summaryOf (s : Spec) :
    Block (summaryOf s) (if Text.isBlankText s.summary then [] else [s.summary]) := by
  unfold summaryOf
  split
  · exact .nil
  · exact .line (by decide) (by decide) s.summary

theorem block_outline (s : Spec) :
    Block (outline s) (s.title :: ((if Text.isBlankText s.summary then [] else [s.summary]) ++
      s.keyScreens.flatMap Screen.told)) := by
  have htitle : Block (line (opening "h1" []) "h1" s.title) [s.title] :=
    .line (by decide) (by decide) s.title
  have hinner := (htitle.append (block_summaryOf s)).append
    (Block.flatMap block_screen s.keyScreens)
  have hmain := Block.element (e := "main") (a := [attr "class" "outline"]) (by decide)
    (by decide) (Block.lineBreak.append hinner)
  have hnoscript := Block.element (e := "noscript") (a := []) (by decide) (by decide)
    (Block.lineBreak.append hmain)
  simpa [outline, withClass] using hnoscript

theorem block_body (s : Spec) :
    Block (body s) (s.title :: ((if Text.isBlankText s.summary then [] else [s.summary]) ++
      s.keyScreens.flatMap Screen.told)) := by
  have hmount := Block.element (e := "div") (a := [attr "id" "app", attr "class" "app"])
    (by decide) (by decide) .nil
  have hscript := Block.element (e := "script") (a := [attr "src" "app.js", ⟨"defer", none⟩])
    (by decide) (by decide) .nil
  have hbody := Block.element (e := "body") (a := []) (by decide) (by decide)
    (((Block.lineBreak.append hmount).append (block_outline s)).append hscript)
  simpa [body] using hbody

def headElement (s : Spec) : List Piece :=
  opening "head" [] ::
    ([.lineBreak, opening "meta" [attr "charset" "utf-8"], .lineBreak,
      opening "meta" [attr "name" "viewport", attr "content" "width=device-width, initial-scale=1"],
      .lineBreak] ++ line (opening "title" []) "title" s.title ++
      [opening "link" [attr "rel" "stylesheet", attr "href" "styles.css"], .lineBreak] ++
        [closing "head", .lineBreak])

theorem block_headElement (s : Spec) : Block (headElement s) [s.title] := by
  have hcharset : Block [opening "meta" [attr "charset" "utf-8"]] [] :=
    .void rfl (by decide) (by decide) (by decide) (by decide)
  have hviewport : Block [opening "meta" [attr "name" "viewport",
      attr "content" "width=device-width, initial-scale=1"]] [] :=
    .void rfl (by decide) (by decide) (by decide) (by decide)
  have hlink : Block [opening "link" [attr "rel" "stylesheet", attr "href" "styles.css"]] [] :=
    .void rfl (by decide) (by decide) (by decide) (by decide)
  have htitle : Block (line (opening "title" []) "title" s.title) [s.title] :=
    .line (by decide) (by decide) s.title
  have hinner := (((Block.lineBreak.append (hcharset.append .lineBreak)).append
    (hviewport.append .lineBreak)).append htitle).append (hlink.append .lineBreak)
  have hhead := Block.element (e := "head") (a := []) (by decide) (by decide) hinner
  simpa [headElement] using hhead

theorem block_pieces (s : Spec) : Block (pieces s) s.told := by
  have hdoctype : Block [doctype] [] := .void rfl (by decide) (by decide) (by decide) (by decide)
  have hhtml := Block.element (e := "html") (a := [attr "lang" "en"]) (by decide)
    (by decide) ((Block.lineBreak.append (block_headElement s)).append (block_body s))
  have hpage := (hdoctype.append .lineBreak).append hhtml
  -- the element of the page is opened in `head` and closed after the body
  have hpieces : [doctype] ++ [.lineBreak] ++ (opening "html" [attr "lang" "en"] ::
      ([.lineBreak] ++ headElement s ++ body s ++ [closing "html", .lineBreak])) = pieces s := by
    simp [pieces, head, headElement]
  rw [hpieces] at hpage
  exact hpage

section Shape

variable {s t : Spec}

theorem tagsOf_flatMap {α β : Type} {g : α → β} {f : α → List Piece}
    (hf : ∀ x y, g x = g y → tagsOf (f x) = tagsOf (f y)) {xs ys : List α}
    (h : xs.map g = ys.map g) : tagsOf (xs.flatMap f) = tagsOf (ys.flatMap f) := by
  induction xs generalizing ys with
  | nil =>
    rw [List.map_nil, eq_comm, List.map_eq_nil_iff] at h
    rw [h]
  | cons x xs ih =>
    cases ys with
    | nil => cases h
    | cons y ys =>
      obtain ⟨hhead, htail⟩ := List.cons.inj h
      rw [List.flatMap_cons, List.flatMap_cons, tagsOf_append, tagsOf_append, hf x y hhead,
        ih htail]

theorem tagsOf_flatMap_of_length {f : String → List Piece}
    (hf : ∀ x y, tagsOf (f x) = tagsOf (f y)) {xs ys : List String} (h : xs.length = ys.length) :
    tagsOf (xs.flatMap f) = tagsOf (ys.flatMap f) := by
  refine tagsOf_flatMap (g := fun _ => ()) (fun x y _ => hf x y) ?_
  rw [List.map_const', List.map_const', h]

theorem tagsOf_around (h : tagsOf ps = tagsOf qs) (first : Piece) (last : List Piece) :
    tagsOf (first :: (ps ++ last)) = tagsOf (first :: (qs ++ last)) := by
  rw [← List.singleton_append, tagsOf_append, tagsOf_append, h, ← tagsOf_append, ← tagsOf_append]
  rfl

theorem tagsOf_break (h : tagsOf ps = tagsOf qs) :
    tagsOf (.lineBreak :: ps) = tagsOf (.lineBreak :: qs) := h

theorem tagsOf_listing (outer : String) (a : List Attribute) (inner : String) (b : List Attribute)
    {xs ys : List String} (h : xs.length = ys.length) :
    tagsOf (listing outer a inner b xs) = tagsOf (listing outer a inner b ys) := by
  cases xs with
  | nil => rw [List.eq_nil_of_length_eq_zero h.symm]
  | cons x xs =>
    cases ys with
    | nil => cases h
    | cons y ys => exact tagsOf_around (tagsOf_flatMap_of_length (fun _ _ => rfl) h) _ _

theorem tagsOf_line (start : Piece) (e x y : String) :
    tagsOf (line start e x) = tagsOf (line start e y) := by
  cases start <;> rfl

theorem tagsOf_flatMap_toList {f : String → List Piece} (hf : ∀ x y, tagsOf (f x) = tagsOf (f y))
    {x y : Option String} (h : x.isSome = y.isSome) :
    tagsOf (x.toList.flatMap f) = tagsOf (y.toList.flatMap f) := by
  refine tagsOf_flatMap_of_length hf ?_
  cases x <;> cases y <;> simp_all

theorem titleOf_eq (c : Component) :
    titleOf c = c.title.toList.flatMap (line (opening "h3" []) "h3") := by
  unfold titleOf
  cases c.title <;> simp

theorem descriptionOf_eq (c : Component) :
    descriptionOf c = c.description.toList.flatMap (line (opening "p" []) "p") := by
  unfold descriptionOf
  cases c.description <;> simp

theorem tagsOf_component {c c' : Component} (h : c.shape = c'.shape) :
    tagsOf (component c) = tagsOf (component c') := by
  simp only [Component.shape, Component.Shape.mk.injEq] at h
  obtain ⟨hkind, htitle, hdescription, hfields, hitems, hactions⟩ := h
  unfold component
  rw [hkind]
  have hinner : tagsOf (titleOf c ++ descriptionOf c ++ listOf (c.fields.getD []) ++
      listOf (c.sampleItems.getD []) ++ buttons c.actions) = tagsOf (titleOf c' ++
        descriptionOf c' ++ listOf (c'.fields.getD []) ++ listOf (c'.sampleItems.getD []) ++
          buttons c'.actions) := by
    simp only [tagsOf_append, titleOf_eq, descriptionOf_eq,
      tagsOf_flatMap_toList (tagsOf_line (opening "h3" []) "h3") htitle,
      tagsOf_flatMap_toList (tagsOf_line (opening "p" []) "p") hdescription,
      listOf_eq, buttons_eq, tagsOf_listing _ _ _ _ hfields, tagsOf_listing _ _ _ _ hitems,
      tagsOf_listing _ _ _ _ hactions]
  exact tagsOf_around (tagsOf_break hinner) _ _

theorem tagsOf_screen {x y : Screen} (h : x.shape = y.shape) :
    tagsOf (screen x) = tagsOf (screen y) := by
  unfold screen
  have hcomponents := tagsOf_flatMap (f := component) (fun _ _ => tagsOf_component) h
  have hinner : tagsOf (line (opening "h2" []) "h2" x.name ++
      line (withClass "p" "screen__goal") "p" x.goal ++ x.components.flatMap component) =
      tagsOf (line (opening "h2" []) "h2" y.name ++
        line (withClass "p" "screen__goal") "p" y.goal ++ y.components.flatMap component) := by
    rw [tagsOf_append, tagsOf_append _ (y.components.flatMap component), hcomponents]
    rfl
  exact tagsOf_around (tagsOf_break hinner) _ _

theorem tagsOf_summaryOf (h : s.shape.hasSummary = t.shape.hasSummary) :
    tagsOf (summaryOf s) = tagsOf (summaryOf t) := by
  have hblank : Text.isBlankText s.summary = Text.isBlankText t.summary := Bool.not_inj h
  unfold summaryOf
  rw [hblank]
  split <;> rfl

theorem tagsOf_pieces (h : s.shape = t.shape) : tagsOf (pieces s) = tagsOf (pieces t) := by
  have hscreens := tagsOf_flatMap (f := screen) (fun _ _ => tagsOf_screen)
    (congrArg Spec.Shape.screens h)
  have hsummary := tagsOf_summaryOf (congrArg Spec.Shape.hasSummary h)
  simp only [pieces, head, body, outline, tagsOf_append, hscreens, hsummary,
    tagsOf_line _ _ s.title t.title]

end Shape

theorem split_render (s : Spec) : split (render s).toList = segments (pieces s) := by
  rw [render, String.toList_ofList, split_sources (block_pieces s).isSealed]

/-- The tags of the markup depend on the shape of the specification alone and are nested, and the
texts in the elements that show one are those of the specification. -/
theorem outline_tells_texts (s : Spec) :
    joined (split (render s).toList) = (render s).toList ∧
    (∀ t : Spec, t.shape = s.shape → tags (render t).toList = tags (render s).toList) ∧
    isNested [] (tags (render s).toList) = true ∧
    (contents (split (render s).toList).2).map (·.map Html.unescape) =
      some (s.told.map String.toList) := by
  have htags (t : Spec) : tags (render t).toList = tagsOf (pieces t) := by
    rw [tags, split_render, map_tag_segments]
    rfl
  refine ⟨?_, fun t ht => ?_, ?_, ?_⟩
  · rw [split_render, joined_segments, render, String.toList_ofList]
  · rw [htags, htags, tagsOf_pieces ht]
  · have hnested := (block_pieces s).nested [] []
    rw [List.append_nil] at hnested
    rw [htags, hnested]
    rfl
  · have htells := (block_pieces s).tells []
    rw [List.append_nil] at htells
    have hnone : contents (segments []).2 = some [] := rfl
    rw [split_render, htells, hnone, Option.map_some, Option.map_some, List.append_nil, List.map_map]
    refine congrArg some (List.map_congr_left fun x _ => ?_)
    exact Html.unescape_escape x.toList

end Markup

end Mockup
