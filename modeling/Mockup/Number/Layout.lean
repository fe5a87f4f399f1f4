import Mockup.Number.Shortest
import Mockup.Text.Decimal

/-! How a double is laid out as text: plainly while the exponent of its leading digit lies in a
range, with an exponent outside it. -/

namespace Mockup.Number

structure Layout where
  plainFrom : Int
  plainTo : Int
  keepsFraction : Bool
  signsZero : Bool

namespace Layout

def json : Layout := ⟨-5, 15, true, true⟩

def page : Layout := ⟨-6, 20, false, false⟩

def plain (layout : Layout) (ds : List Char) (e : Int) : List Char :=
  match e with
  | .ofNat n =>
    if ds.length ≤ n + 1 then
      ds ++ List.replicate (n + 1 - ds.length) '0' ++
        (if layout.keepsFraction then ['.', '0'] else [])
    else ds.take (n + 1) ++ '.' :: ds.drop (n + 1)
  | .negSucc n => '0' :: '.' :: (List.replicate n '0' ++ ds)

def withExponent (ds : List Char) (e : Int) : List Char :=
  let mantissa :=
    match ds with
    | [] => []
    | [d] => [d]
    | d :: more => d :: '.' :: more
  let sign := if e < 0 then '-' else '+'
  mantissa ++ 'e' :: sign :: Text.digits e.natAbs

def write (layout : Layout) (x : Double) : List Char :=
  let d := x.shortest
  let ds := Text.digits d.digits
  let e := d.exponent + ds.length - 1
  let body :=
    if layout.plainFrom ≤ e ∧ e ≤ layout.plainTo then layout.plain ds e else withExponent ds e
  if x.negative && (layout.signsZero || !x.isZero) then '-' :: body else body

end Layout

end Mockup.Number
