import Mockup.Json.Decoder
import Mockup.Number.Layout
import Mockup.Text.Blank

/-! The data of a page. A page is made for specifications but takes any JSON: what it looks for and
does not find is left out, and a text can be made of nearly every value. -/

namespace Mockup.Page

open Json

def isZero : Json.Number → Bool
  | .int k => k.val = 0
  | .real x => x.isZero

def isFilled : Value → Bool
  | .null => false
  | .bool b => b
  | .number n => !isZero n
  | .text s => s ≠ ""
  | _ => true

def member? (v : Value) (key : String) : Option Value := v.object?.bind fun m => m.get? key

def filled? (v : Value) (key : String) : Option Value := (member? v key).filter isFilled

def listAt (v : Value) (key : String) : List Value := ((member? v key).bind Value.list?).getD []

mutual

/-- The text of a value. There is none for objects that have a member named like the function that
makes texts of objects. -/
def text? : Value → Option String
  | .null => some "null"
  | .bool b => some (if b then "true" else "false")
  | .number n => some (String.ofList (Number.Layout.page.write (Decoder.nearest n)))
  | .text s => some s
  | .list items => (itemTexts? items).map fun ts => ",".intercalate ts
  | .object m => if m.any fun p => p.1 = "toString" then none else some "[object Object]"

def itemTexts? : List Value → Option (List String)
  | [] => some []
  | .null :: vs => (itemTexts? vs).map fun ts => "" :: ts
  | v :: vs => (text? v).bind fun t => (itemTexts? vs).map fun ts => t :: ts

end

def ownText? (v : Option Value) : Option String :=
  match v with
  | none => some ""
  | some .null => some ""
  | some v => text? v

/-- White space that a page trims. The byte order mark is white space to it, and the next-line
character is not. -/
def isTrimmed (c : Char) : Bool := (Text.isBlank c && c ≠ '\u0085') || c = '\ufeff'

def trimmed (s : String) : String := String.ofList (Text.strip isTrimmed s.toList)

end Mockup.Page
