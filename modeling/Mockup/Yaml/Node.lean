import Mockup.Number.Double
import Mockup.Text.Decimal
import Mockup.Text.Hex

/-! YAML nodes, and what a scalar can stand for. -/

namespace Mockup.Yaml

inductive Node where
  /-- A scalar is plain when it is not quoted. -/
  | scalar (text : String) (plain : Bool)
  | list (items : List Node)
  | mapping (members : List (Node × Node))

instance : Inhabited Node := ⟨.scalar "" true⟩

namespace Node

def nothing : Node := .scalar "" true

def isNothing : Node → Bool
  | .scalar text plain => plain && text = ""
  | _ => false

def isNull : Node → Bool
  | .scalar text plain => plain && ["", "~", "null", "Null", "NULL"].contains text
  | _ => false

def text? : Node → Option String
  | .scalar text _ => some text
  | _ => none

def plain? : Node → Option (List Char)
  | .scalar text true => some text.toList
  | _ => none

end Node

def addDigit? (base n : Nat) (c : Char) : Option Nat :=
  (Text.hexValue? c).bind fun k => if k < base then some (base * n + k) else none

def inBase? (base : Nat) (cs : List Char) : Option Nat :=
  if cs.isEmpty then none else cs.foldlM (addDigit? base) 0

def dropPlus : List Char → List Char
  | '+' :: cs => cs
  | cs => cs

def natural? (cs : List Char) : Option Nat :=
  match dropPlus cs with
  | '0' :: 'x' :: rest => inBase? 16 rest
  | '0' :: 'o' :: rest => inBase? 8 rest
  | '0' :: 'b' :: rest => inBase? 2 rest
  | ['0'] => some 0
  | '0' :: _ => none
  | rest => inBase? 10 rest

def exponent? : List Char → Option Int
  | [] => some 0
  | c :: cs =>
    if c = 'e' || c = 'E' then
      match cs with
      | '-' :: digits => (inBase? 10 digits).map fun n => -(n : Int)
      | digits => (inBase? 10 (dropPlus digits)).map Int.ofNat
    else none

def unsignedReal? (negative : Bool) (cs : List Char) : Option Number.Double :=
  let whole := cs.takeWhile Text.isDigit
  let rest := cs.dropWhile Text.isDigit
  let (fraction, tail) :=
    match rest with
    | '.' :: more => (more.takeWhile Text.isDigit, more.dropWhile Text.isDigit)
    | _ => ([], rest)
  if whole.isEmpty && fraction.isEmpty then none
  else (exponent? tail).bind fun e =>
    Number.Double.nearestLiteral? negative (Text.ofDigits (whole ++ fraction)) (e - fraction.length)

def real? : List Char → Option Number.Double
  | '-' :: cs => unsignedReal? true cs
  | cs => unsignedReal? false (dropPlus cs)

def isNotFinite (cs : List Char) : Bool :=
  [".inf", ".Inf", ".INF", "+.inf", "+.Inf", "+.INF", "-.inf", "-.Inf", "-.INF", ".nan", ".NaN",
    ".NAN"].contains (String.ofList cs)

end Mockup.Yaml
