import Mockup.Json.Printer
import Mockup.Text.Blank

/-! Readings of loose JSON values as texts and lists. A value without a sensible reading has
none. -/

namespace Mockup.Payload

open Json

def stringText? : Value → Option String
  | .text s => Text.filled? s
  | _ => none

def scalarText? : Value → Option String
  | .text s => Text.filled? s
  | .number n => some (String.ofList n.print)
  | .bool b => some (if b then "true" else "false")
  | _ => none

def firstText? (m : Members) (keys : List String) : Option String :=
  keys.findSome? fun key => (m.get? key).bind scalarText?

def firstList? (m : Members) (keys : List String) : Option (List Value) :=
  keys.findSome? fun key => (m.get? key).bind Value.list?

def labelKeys : List String := ["label", "title", "name", "text", "value"]

/-- A list item as text. An object without a label, and a list, are written as JSON. -/
def itemText? : Value → Option String
  | .null => none
  | .object m =>
    (firstText? m labelKeys).or (if m.isEmpty then none else some (Value.object m).compact)
  | .list vs => if vs.isEmpty then none else some (Value.list vs).compact
  | v => scalarText? v

def textList? : Value → Option (List String)
  | .list vs => some (vs.filterMap itemText?)
  | .text s => (Text.filled? s).map fun t => [t]
  | _ => none

def cell? (key : String) : Value → Option (String × String)
  | .null => none
  | .text s => some (key, s)
  | v => some (key, (scalarText? v).getD v.compact)

def row? : Value → Option (List (String × String))
  | .object m => some (m.filterMap fun p => cell? p.1 p.2)
  | _ => none

def rows? : Value → Option (List (List (String × String)))
  | .list vs => some (vs.filterMap row?)
  | _ => none

/-- The trimmed text, cut to so many characters with an ellipsis in place of the rest. -/
def shorten (limit : Nat) (s : String) : String :=
  let cs := Text.trim s.toList
  if cs.length ≤ limit then String.ofList cs
  else String.ofList (Text.dropEnd Text.isBlank (cs.take limit) ++ ['…'])

end Mockup.Payload
