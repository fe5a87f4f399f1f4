import Mockup.Number.Double

/-! JSON values. An integer that fits 64 bits, signed or unsigned, stays an integer; every other
number is a double. Objects list their members; free-form objects keep them sorted by key. -/

namespace Mockup.Json

/-- An integer that fits a signed or an unsigned 64-bit word, so from `-2 ^ 63` to `2 ^ 64 - 1`. -/
structure Integer where
  val : Int
  low : -0x8000000000000000 ≤ val
  high : val < 0x10000000000000000
deriving DecidableEq

namespace Integer

def ofInt? (n : Int) : Option Integer :=
  if h : -0x8000000000000000 ≤ n ∧ n < 0x10000000000000000 then some ⟨n, h.1, h.2⟩ else none

def count (n : Nat) : Integer :=
  (ofInt? n).getD ⟨0xffffffffffffffff, by decide, by decide⟩

end Integer

inductive Number where
  | int (n : Integer)
  | real (x : Mockup.Number.Double)
deriving DecidableEq

/-- Equality of numbers, for which the two zeros among the doubles are one. -/
def Number.same : Number → Number → Bool
  | .int a, .int b => a = b
  | .real x, .real y => x.same y
  | _, _ => false

inductive Value where
  | null
  | bool (b : Bool)
  | number (n : Number)
  | text (s : String)
  | list (items : List Value)
  | object (members : List (String × Value))

instance : Inhabited Value := ⟨.null⟩

abbrev Members := List (String × Value)

namespace Members

def get? (m : Members) (key : String) : Option Value := m.lookup key

def has (m : Members) (key : String) : Bool := (m.get? key).isSome

/-- Puts a member at its place among sorted members, in place of one with the same key. -/
def set (key : String) (value : Value) : Members → Members
  | [] => [(key, value)]
  | (k, v) :: rest =>
    if key < k then (key, value) :: (k, v) :: rest
    else if key = k then (key, value) :: rest
    else (k, v) :: set key value rest

def erase (m : Members) (key : String) : Members := m.filter fun p => p.1 ≠ key

/-- Sorts members by key; of two with one key the later one stays. -/
def sorted (m : List (String × Value)) : Members :=
  m.foldl (fun acc p => set p.1 p.2 acc) []

def Sorted (m : Members) : Prop := m.Pairwise fun a b => a.1 < b.1

end Members

namespace Value

def count (n : Nat) : Value := .number (.int (.count n))

def texts (xs : List String) : Value := .list (xs.map .text)

def optional (x : Option String) : Value := (x.map Value.text).getD .null

def mapping (m : List (String × Value)) : Value := .object (Members.sorted m)

def text? : Value → Option String
  | .text s => some s
  | _ => none

def bool? : Value → Option Bool
  | .bool b => some b
  | _ => none

def list? : Value → Option (List Value)
  | .list items => some items
  | _ => none

def object? : Value → Option Members
  | .object m => some m
  | _ => none

def isObject (v : Value) : Bool := v.object?.isSome

def kindName : Value → String
  | .null => "null"
  | .bool _ => "boolean"
  | .number _ => "number"
  | .text _ => "string"
  | .list _ => "array"
  | .object _ => "object"

mutual

/-- The value with the members of every object in it sorted. -/
def normal : Value → Value
  | .list items => .list (normalItems items)
  | .object m => .object (Members.sorted (normalMembers m))
  | v => v

def normalItems : List Value → List Value
  | [] => []
  | v :: vs => normal v :: normalItems vs

def normalMembers : List (String × Value) → List (String × Value)
  | [] => []
  | (k, v) :: m => (k, normal v) :: normalMembers m

end

mutual

/-- Equality of values, for which the two zeros among the doubles are one. -/
def same : Value → Value → Bool
  | .null, .null => true
  | .bool a, .bool b => a = b
  | .number a, .number b => a.same b
  | .text a, .text b => a = b
  | .list xs, .list ys => sameItems xs ys
  | .object xs, .object ys => sameMembers xs ys
  | _, _ => false

def sameItems : List Value → List Value → Bool
  | [], [] => true
  | x :: xs, y :: ys => same x y && sameItems xs ys
  | _, _ => false

def sameMembers : List (String × Value) → List (String × Value) → Bool
  | [], [] => true
  | (j, x) :: xs, (k, y) :: ys => j = k && same x y && sameMembers xs ys
  | _, _ => false

end

end Value

end Mockup.Json
