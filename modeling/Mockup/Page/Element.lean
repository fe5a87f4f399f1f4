import Mockup.Json.Value
import Mockup.Text.Search

/-! The elements that a page shows. -/

namespace Mockup.Page

open Json

abbrev Place := Nat × Nat

/-- What an input holds. It is an object in the one case that its label is the name of the prototype
of objects, under which no text can be saved. -/
inductive Held where
  | text (s : String)
  | object
deriving DecidableEq

inductive Reaction where
  | go (screen : Nat)
  | act (label : Value)
  | addItem (place : Place)
  | dismiss (id : Nat)

structure Submission where
  place : Place
  fields : List Value
  label : Value
  title : Option Value

structure Head where
  tag : String
  className : String
  text : String := ""
  type : String := ""
  name : String := ""
  placeholder : String := ""
  value : Held := .text ""
  onClick : Option Reaction := none
  onSubmit : Option Submission := none

inductive Element where
  | node (head : Head) (children : List Element)

namespace Element

def head : Element → Head
  | node h _ => h

def children : Element → List Element
  | node _ cs => cs

mutual

def content : Element → String
  | node h cs => h.text ++ contents cs

def contents : List Element → String
  | [] => ""
  | e :: es => content e ++ contents es

end

structure Found where
  element : Element
  form : Option Element

mutual

def found (form : Option Element) : Element → List Found
  | node h cs =>
    ⟨node h cs, form⟩ :: foundAll (if h.tag = "FORM" then some (node h cs) else form) cs

def foundAll (form : Option Element) : List Element → List Found
  | [] => []
  | e :: es => found form e ++ foundAll form es

end

def all (es : List Element) : List Element := (foundAll none es).map Found.element

def hasClass (name : String) (e : Element) : Bool :=
  Text.occursIn (" " ++ name ++ " ").toList (" " ++ e.head.className ++ " ").toList

def withClass (name : String) (es : List Element) : List Element := (all es).filter (hasClass name)

def isInput (e : Element) : Bool := e.head.tag = "INPUT"

def isButton (e : Element) : Bool :=
  e.head.tag = "BUTTON" && !Text.occursIn "nav-link".toList e.head.className.toList

def inputs (es : List Element) : List Element := (all es).filter isInput

def values (es : List Element) : List Held := (inputs es).map fun e => e.head.value

mutual

/-- Sets the input with a number, counted from the first one in the element, to a value. What is
left of the number is given along. -/
def fill (value : Held) (number : Option Nat) : Element → Element × Option Nat
  | node h cs =>
    let (h, number) :=
      if h.tag = "INPUT" then
        match number with
        | some 0 => ({ h with value }, none)
        | some (n + 1) => (h, some n)
        | none => (h, none)
      else (h, number)
    let (cs, number) := fillAll value number cs
    (node h cs, number)

def fillAll (value : Held) (number : Option Nat) : List Element → List Element × Option Nat
  | [] => ([], number)
  | e :: es =>
    let (e, number) := fill value number e
    let (es, number) := fillAll value number es
    (e :: es, number)

end

end Element

end Mockup.Page
