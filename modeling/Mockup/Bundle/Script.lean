import Mockup.Bundle.PageScript
import Mockup.Spec.Record

/-! The script of a bundle: the specification as one line of data, then the page script. -/

namespace Mockup.Script

/-- Changes JSON text so that it can stand in a script: nothing in it closes the script element or
counts as a line end. -/
def shield : List Char → List Char
  | [] => []
  | '<' :: '/' :: cs => '<' :: '\\' :: '/' :: shield cs
  | c :: cs =>
    if c = '\u2028' then "\\u2028".toList ++ shield cs
    else if c = '\u2029' then "\\u2029".toList ++ shield cs
    else c :: shield cs

def embed (s : Spec) : String := String.ofList (shield (Spec.record.ordered s).print)

def dataLine (s : Spec) : String := "window.__PROTOFORGE_SPEC__ = " ++ embed s ++ ";"

def render (s : Spec) : String := dataLine s ++ "\n" ++ PageScript.text

end Mockup.Script
