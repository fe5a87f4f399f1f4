import Mockup.Page.Basic

/-! What can be seen of a page: in short, and as a tree of all its elements. -/

namespace Mockup.Page

open Json

namespace Held

def shown : Held → String
  | text s => s
  | object => "[object Object]"

def toValue : Held → Value
  | text s => .text s
  | object => .object []

end Held

def textsOf (es : List Element) : Value := .texts (es.map Element.content)

def screenName (p : Page) : Option String :=
  (Element.withClass "screen__name" p.content).head?.bind fun e =>
    if e.content = "" then none else some e.content

def snapshot (p : Page) : Value :=
  .object [
    ("screen", .optional p.screenName),
    ("buttons", textsOf ((Element.all p.content).filter Element.isButton)),
    ("notifications", textsOf (Element.withClass "notification" p.content)),
    ("listItems", textsOf (Element.withClass "list__item" p.content)),
    ("statTiles", textsOf (Element.withClass "stats__tile" p.content)),
    ("inputs", .list ((Element.values p.content).map Held.toValue))]

def property (key text : String) : List (String × Value) :=
  if text = "" then [] else [(key, .text text)]

mutual

def treeOf : Element → Value
  | .node h cs =>
    .object
      (("tag", .text h.tag) :: property "className" h.className ++ property "ownText" h.text ++
        property "type" h.type ++ property "name" h.name ++ property "placeholder" h.placeholder ++
        property "value" h.value.shown ++
        if cs.isEmpty then [] else [("children", .list (treesOf cs))])

def treesOf : List Element → List Value
  | [] => []
  | e :: es => treeOf e :: treesOf es

end

def tree (p : Page) : Value := .list (treesOf p.content)

end Mockup.Page
