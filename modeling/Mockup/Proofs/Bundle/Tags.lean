import Mockup.Bundle.Markup
import Mockup.Proofs.Bundle.Html

/-! Markup as a client sees it: tags, and the text between them. Markup that is written from pieces
is split into the tags of its pieces, whatever their texts are. -/

namespace Mockup.Markup

structure Segment where
  tag : List Char
  text : List Char
deriving DecidableEq

def split : List Char → List Char × List Segment
  | [] => ([], [])
  | c :: cs =>
    let (text, segments) := split cs
    if c = '<' then
      ([], ⟨text.takeWhile (· ≠ '>'), (text.dropWhile (· ≠ '>')).tail⟩ :: segments)
    else (c :: text, segments)

def Segment.source (s : Segment) : List Char := '<' :: (s.tag ++ '>' :: s.text)

def joined (m : List Char × List Segment) : List Char := m.1 ++ m.2.flatMap Segment.source

def tags (cs : List Char) : List (List Char) := (split cs).2.map Segment.tag

def nameOf (tag : List Char) : List Char := tag.takeWhile (· ≠ ' ')

def voidNames : List (List Char) := ["!DOCTYPE".toList, "meta".toList, "link".toList]

/-- Whether every tag that opens an element is followed by the one that closes it, the elements that
are open before being named innermost first. -/
def isNested : List (List Char) → List (List Char) → Bool
  | opened, [] => opened.isEmpty
  | opened, ('/' :: name) :: rest =>
    match opened with
    | [] => false
    | inner :: outer => inner = name && isNested outer rest
  | opened, tag :: rest =>
    if voidNames.contains (nameOf tag) then isNested opened rest
    else isNested (nameOf tag :: opened) rest

def tellingNames : List (List Char) :=
  ["title".toList, "h1".toList, "h2".toList, "h3".toList, "p".toList, "li".toList, "button".toList]

/-- What stands in the elements that show a text, unless one of them holds another element. -/
def contents : List Segment → Option (List (List Char))
  | [] => some []
  | s :: rest =>
    if tellingNames.contains (nameOf s.tag) then
      match rest with
      | t :: _ =>
        if t.tag = '/' :: nameOf s.tag then (contents rest).map (s.text :: ·) else none
      | [] => none
    else contents rest

section Split

variable {tag text cs : List Char}

theorem split_text (h : '<' ∉ text) (cs : List Char) :
    split (text ++ cs) = (text ++ (split cs).1, (split cs).2) := by
  induction text with
  | nil => rfl
  | cons c text ih =>
    rw [List.mem_cons, not_or] at h
    rw [List.cons_append, split, ih h.2]
    exact if_neg (Ne.symm h.1)

theorem split_tag (hopen : '<' ∉ tag) (hclose : '>' ∉ tag) (cs : List Char) :
    split ('<' :: (tag ++ '>' :: cs)) = ([], ⟨tag, (split cs).1⟩ :: (split cs).2) := by
  have hbracket : '<' ∉ tag ++ ['>'] := by simpa using hopen
  have hall : ∀ c ∈ tag, decide (c ≠ '>') = true := fun c hc => by
    simpa using ne_of_mem_of_not_mem hc hclose
  have htake (text : List Char) : (tag ++ '>' :: text).takeWhile (· ≠ '>') = tag := by
    rw [List.takeWhile_append_of_pos hall]
    simp
  have hdrop (text : List Char) : (tag ++ '>' :: text).dropWhile (· ≠ '>') = '>' :: text := by
    rw [List.dropWhile_append_of_pos hall]
    simp
  -- up to its closing bracket a tag is like any other text without opening brackets
  have hassoc : tag ++ '>' :: cs = tag ++ ['>'] ++ cs := by simp
  rw [hassoc, split, split_text hbracket, List.append_assoc, List.singleton_append]
  simp only [if_pos, htake, hdrop, List.tail_cons]

end Split

namespace Piece

def tag? : Piece → Option (List Char)
  | doctype => some "!DOCTYPE html".toList
  | opening element attributes => some (element.toList ++ attributes.flatMap Attribute.source)
  | closing element => some ('/' :: element.toList)
  | text _ => none
  | lineBreak => none

theorem source_of_tag? {p : Piece} {tag : List Char} (h : p.tag? = some tag) :
    p.source = '<' :: (tag ++ ['>']) := by
  have hdoctype : "<!DOCTYPE html>".toList = '<' :: ("!DOCTYPE html".toList ++ ['>']) := by decide
  cases p with
  | text content => cases h
  | lineBreak => cases h
  | doctype =>
    rw [← Option.some.inj h]
    exact hdoctype
  | opening element attributes =>
    rw [← Option.some.inj h]
    rfl
  | closing element =>
    rw [← Option.some.inj h]
    rfl

theorem less_not_mem_source {p : Piece} (h : p.tag? = none) : '<' ∉ p.source := by
  cases p with
  | text content => exact Html.less_not_mem_escape _
  | lineBreak => decide
  | doctype => cases h
  | opening element attributes => cases h
  | closing element => cases h

def Sealed (p : Piece) : Prop := ∀ tag ∈ p.tag?, '<' ∉ tag ∧ '>' ∉ tag

instance (p : Piece) : Decidable p.Sealed := by
  unfold Sealed
  infer_instance

end Piece

open Piece

def segments : List Piece → List Char × List Segment
  | [] => ([], [])
  | p :: ps =>
    match p.tag? with
    | some tag => ([], ⟨tag, (segments ps).1⟩ :: (segments ps).2)
    | none => (p.source ++ (segments ps).1, (segments ps).2)

variable {ps qs : List Piece}

theorem split_sources (h : ∀ p ∈ ps, p.Sealed) : split (ps.flatMap Piece.source) = segments ps := by
  induction ps with
  | nil => rfl
  | cons p ps ih =>
    obtain ⟨hp, hps⟩ := List.forall_mem_cons.mp h
    rw [List.flatMap_cons, segments]
    cases htag : p.tag? with
    | some tag =>
      obtain ⟨hopen, hclose⟩ := hp tag htag
      rw [source_of_tag? htag, List.cons_append, List.append_assoc, List.singleton_append,
        split_tag hopen hclose, ih hps]
    | none => rw [split_text (less_not_mem_source htag), ih hps]

theorem map_tag_segments (ps : List Piece) :
    (segments ps).2.map Segment.tag = ps.filterMap Piece.tag? := by
  induction ps with
  | nil => rfl
  | cons p ps ih =>
    rw [segments, List.filterMap_cons]
    cases p.tag? with
    | some tag => rw [List.map_cons, ih]
    | none => exact ih

theorem joined_segments (ps : List Piece) : joined (segments ps) = ps.flatMap Piece.source := by
  induction ps with
  | nil => rfl
  | cons p ps ih =>
    rw [segments, List.flatMap_cons, ← ih]
    cases htag : p.tag? with
    | some tag => simp [joined, Segment.source, source_of_tag? htag]
    | none => simp [joined]

end Mockup.Markup
