import Mockup.Bundle.Html
import Mockup.Spec.Basic

/-! The markup of a bundle: a shell for the script, and an outline of all screens for clients that
run none. It is built from tags and texts, and only texts come from the specification. -/

namespace Mockup.Markup

structure Attribute where
  name : String
  value : Option String := none

inductive Piece where
  | doctype
  | opening (element : String) (attributes : List Attribute)
  | closing (element : String)
  | text (content : String)
  | lineBreak

namespace Attribute

def source (a : Attribute) : List Char :=
  match a.value with
  | some v => ' ' :: (a.name.toList ++ '=' :: '"' :: (v.toList ++ ['"']))
  | none => ' ' :: a.name.toList

end Attribute

namespace Piece

def source : Piece → List Char
  | doctype => "<!DOCTYPE html>".toList
  | opening element attributes =>
    '<' :: (element.toList ++ attributes.flatMap Attribute.source ++ ['>'])
  | closing element => '<' :: '/' :: (element.toList ++ ['>'])
  | text content => Html.escape content.toList
  | lineBreak => ['\n']

end Piece

open Piece

def attr (name value : String) : Attribute := ⟨name, some value⟩

def withClass (element name : String) : Piece := opening element [attr "class" name]

def line (start : Piece) (element content : String) : List Piece :=
  [start, text content, closing element, lineBreak]

def listOf (items : List String) : List Piece :=
  match items with
  | [] => []
  | items =>
    opening "ul" [] ::
      (items.flatMap fun item => [opening "li" [], text item, closing "li"]) ++
        [closing "ul", lineBreak]

def buttons (actions : List String) : List Piece :=
  match actions with
  | [] => []
  | actions =>
    withClass "div" "component__actions" ::
      (actions.flatMap fun action =>
        [opening "button" [attr "type" "button", ⟨"disabled", none⟩], text action,
          closing "button"]) ++
        [closing "div", lineBreak]

def titleOf (c : Component) : List Piece :=
  match c.title with
  | some t => line (opening "h3" []) "h3" t
  | none => []

def descriptionOf (c : Component) : List Piece :=
  match c.description with
  | some t => line (opening "p" []) "p" t
  | none => []

def component (c : Component) : List Piece :=
  withClass "div" ("component component--" ++ c.kind.name) :: lineBreak ::
    (titleOf c ++ descriptionOf c ++ listOf (c.fields.getD []) ++ listOf (c.sampleItems.getD []) ++
      buttons c.actions ++ [closing "div", lineBreak])

def screen (s : Screen) : List Piece :=
  withClass "section" "screen" :: lineBreak ::
    (line (opening "h2" []) "h2" s.name ++ line (withClass "p" "screen__goal") "p" s.goal ++
      s.components.flatMap component ++ [closing "section", lineBreak])

def head (s : Spec) : List Piece :=
  [doctype, lineBreak, opening "html" [attr "lang" "en"], lineBreak, opening "head" [], lineBreak,
   opening "meta" [attr "charset" "utf-8"], lineBreak,
   opening "meta" [attr "name" "viewport", attr "content" "width=device-width, initial-scale=1"],
   lineBreak] ++
  line (opening "title" []) "title" s.title ++
  [opening "link" [attr "rel" "stylesheet", attr "href" "styles.css"], lineBreak,
   closing "head", lineBreak]

def summaryOf (s : Spec) : List Piece :=
  if Text.isBlankText s.summary then []
  else line (withClass "p" "outline__summary") "p" s.summary

def outline (s : Spec) : List Piece :=
  [opening "noscript" [], lineBreak, withClass "main" "outline", lineBreak] ++
  line (opening "h1" []) "h1" s.title ++ summaryOf s ++ s.keyScreens.flatMap screen ++
  [closing "main", lineBreak, closing "noscript", lineBreak]

def body (s : Spec) : List Piece :=
  [opening "body" [], lineBreak,
   opening "div" [attr "id" "app", attr "class" "app"], closing "div", lineBreak] ++
  outline s ++
  [opening "script" [attr "src" "app.js", ⟨"defer", none⟩], closing "script", lineBreak,
   closing "body", lineBreak]

def pieces (s : Spec) : List Piece := head s ++ body s ++ [closing "html", lineBreak]

def render (s : Spec) : String := String.ofList ((pieces s).flatMap Piece.source)

end Mockup.Markup
