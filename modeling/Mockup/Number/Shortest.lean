import Mockup.Number.Double

/-! The shortest decimal that reads back as a given double. Of the decimals with the fewest digits
it is the one nearest to the double, and from the middle the one with the even last digit. -/

namespace Mockup.Number

structure Decimal where
  digits : Nat
  exponent : Int
deriving DecidableEq

namespace Double

/-- The numbers that round to a positive double, as numerators over `4 * 2 ^ 1074`. -/
structure Neighbourhood where
  low : Nat
  high : Nat
  closed : Bool

def neighbourhood (x : Double) : Neighbourhood where
  low :=
    if x.magnitude % twoPow 52 = 0 ∧ twoPow 53 ≤ x.magnitude then 4 * x.numerator - twoPow x.scale
    else 4 * x.numerator - 2 * twoPow x.scale
  high := 4 * x.numerator + 2 * twoPow x.scale
  closed := x.significand % 2 = 0

def Neighbourhood.contains (h : Neighbourhood) (num den : Nat) : Bool :=
  let n := num * (4 * twoPow 1074)
  if h.closed then h.low * den ≤ n && n ≤ h.high * den
  else h.low * den < n && n < h.high * den

def leadingExponent (num den : Nat) : Nat → Int → Int
  | 0, e => e
  | fuel + 1, e =>
    let reaches : Bool :=
      match e with
      | .ofNat n => den * tenPow n ≤ num
      | .negSucc n => den ≤ num * tenPow (n + 1)
    if reaches then e else leadingExponent num den fuel (e - 1)

/-- A first guess for the leading exponent that is never too small. -/
def exponentGuess (num den : Nat) : Int :=
  ((Nat.log2 num : Int) - (Nat.log2 den : Int) + 1) * 30103 / 100000 + 1

/-- The multiple of `10 ^ unit` to print for the positive number `num / den`, if one of the two
around it rounds to the double. -/
def onGrid? (h : Neighbourhood) (num den : Nat) (unit : Int) : Option Nat :=
  let (n, d) :=
    match unit with
    | .ofNat u => (num, den * tenPow u)
    | .negSucc u => (num * tenPow (u + 1), den)
  let below := n / d
  let inside (k : Nat) : Bool :=
    match unit with
    | .ofNat u => h.contains (k * tenPow u) 1
    | .negSucc u => h.contains k (tenPow (u + 1))
  let r := n % d
  let belowIsNearer := 2 * r < d || (2 * r = d && below % 2 = 0)
  match below ≠ 0 && inside below, inside (below + 1) with
  | true, true => some (if belowIsNearer then below else below + 1)
  | true, false => some below
  | false, true => some (below + 1)
  | false, false => none

def searchGrids (h : Neighbourhood) (num den : Nat) : Nat → Int → Decimal
  | 0, unit => ⟨num / den, unit⟩
  | fuel + 1, unit =>
    match onGrid? h num den unit with
    | some k => ⟨k, unit⟩
    | none => searchGrids h num den fuel (unit - 1)

def Decimal.shorten (fuel : Nat) (d : Decimal) : Decimal :=
  match fuel with
  | 0 => d
  | fuel + 1 =>
    if d.digits ≠ 0 ∧ d.digits % 10 = 0 then shorten fuel ⟨d.digits / 10, d.exponent + 1⟩ else d

def shortest (x : Double) : Decimal :=
  if x.isZero then ⟨0, 0⟩
  else
    let den := twoPow 1074
    let top := leadingExponent x.numerator den 8 (exponentGuess x.numerator den)
    Decimal.shorten 20 (searchGrids x.neighbourhood x.numerator den 20 top)

end Double

end Mockup.Number
