import Mockup.Number.Power

/-! Finite binary floating-point numbers with 53 significant bits, as exact integers.

A double is a sign and a magnitude. The magnitude counts the representable numbers from zero up, so
that its quotient by `2 ^ 52` is the exponent field and its remainder the fraction field. Rounding
goes to the nearest double and, from the middle, to the one with the even magnitude. -/

namespace Mockup.Number

/-- The bound is `2047 * 2 ^ 52`, where the infinities stand. -/
structure Double where
  negative : Bool
  magnitude : Nat
  finite : magnitude < 0x7ff0000000000000
deriving DecidableEq

namespace Double

def zero : Double := ⟨false, 0, by decide⟩

instance : Inhabited Double := ⟨zero⟩

def isZero (x : Double) : Bool := x.magnitude = 0

def neg (x : Double) : Double := { x with negative := !x.negative }

/-- The number is `significand * 2 ^ (scale - 1074)` up to its sign. -/
def significand (x : Double) : Nat :=
  if x.magnitude < twoPow 52 then x.magnitude else x.magnitude % twoPow 52 + twoPow 52

def scale (x : Double) : Nat := x.magnitude / twoPow 52 - 1

/-- The quotient rounded to the nearest natural number, from the middle to the even one. -/
def roundHalfEven (num den : Nat) : Nat :=
  let q := num / den
  let r := num % den
  if 2 * r < den then q else if den < 2 * r then q + 1 else if q % 2 = 0 then q else q + 1

/-- The largest `k` with `2 ^ k * den ≤ num`, given that there is one. -/
def log2Ratio (num den : Nat) : Nat :=
  let k := Nat.log2 num - Nat.log2 den
  if twoPow k * den ≤ num then k else k - 1

def nearestMagnitude (num den : Nat) : Nat :=
  if num = 0 then 0
  else
    let scale := if num < twoPow 53 * den then 0 else log2Ratio num den - 52
    scale * twoPow 52 + roundHalfEven num (den * twoPow scale)

def ofRatio? (negative : Bool) (num den : Nat) : Option Double :=
  let magnitude := nearestMagnitude (num * twoPow 1074) den
  if h : magnitude < 0x7ff0000000000000 then some ⟨negative, magnitude, h⟩ else none

def ofNat? (n : Nat) : Option Double := ofRatio? false n 1

def numerator (x : Double) : Nat := x.significand * twoPow x.scale

def mul? (x y : Double) : Option Double :=
  ofRatio? (x.negative != y.negative) (x.numerator * y.numerator) (twoPow 1074 * twoPow 1074)

def div? (x y : Double) : Option Double :=
  ofRatio? (x.negative != y.negative) x.numerator y.numerator

def same (x y : Double) : Bool :=
  x.magnitude = y.magnitude && (x.negative = y.negative || x.isZero)

def ltInt (x : Double) (n : Int) : Bool :=
  (if x.negative then -(x.numerator : Int) else x.numerator) < n * (twoPow 1074 : Int)

def gtInt (x : Double) (n : Int) : Bool :=
  n * (twoPow 1074 : Int) < (if x.negative then -(x.numerator : Int) else x.numerator)

def tenPow? (n : Nat) : Option Double := ofNat? (tenPow n)

def divTenPow (x : Double) (n : Nat) : Double :=
  if n ≤ 308 then ((tenPow? n).bind x.div?).getD zero
  else if x.isZero then x
  else divTenPow (((tenPow? 308).bind x.div?).getD zero) (n - 308)
termination_by n

/-- The double that a decimal literal with these digits and this power of ten stands for: the
digits become a double, which one multiplication or division by a power of ten then scales. This
rounds twice, so it is not always the double nearest to the literal. -/
def ofLiteral? (negative : Bool) (digits : Nat) (exponent : Int) : Option Double := do
  let whole ← ofNat? digits
  let scaled ←
    match exponent with
    | .ofNat n =>
      if n ≤ 308 then (tenPow? n).bind whole.mul?
      else if whole.isZero then some whole else none
    | .negSucc n => some (whole.divTenPow (n + 1))
  some (if negative then scaled.neg else scaled)

/-- The double nearest to a decimal literal. Exponents far outside the range are cut short, which
changes nothing for literals of fewer than a thousand digits. -/
def nearestLiteral? (negative : Bool) (digits : Nat) (exponent : Int) : Option Double :=
  if exponent < -2000 then ofRatio? negative 0 1
  else if 2000 < exponent then (if digits = 0 then ofRatio? negative 0 1 else none)
  else match exponent with
    | .ofNat n => ofRatio? negative (digits * tenPow n) 1
    | .negSucc n => ofRatio? negative digits (tenPow (n + 1))

end Double

end Mockup.Number
