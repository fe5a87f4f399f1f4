import Mockup.Json.Reader.Basic

/-! Reading numbers. The digits of a number fill one unsigned 64-bit word; digits of the whole part
that no longer fit count as powers of ten, and digits of the fraction that do not fit are
dropped. -/

namespace Mockup.Json.Reader

open Mockup.Number (Double)

/-- Appends digits to a number while it fits a 64-bit word; also gives the digits left over. -/
def absorb (n : Nat) : List Char → Nat × List Char
  | [] => (n, [])
  | d :: ds =>
    if 0x10000000000000000 ≤ 10 * n + Text.digitValue d then (n, d :: ds)
    else absorb (10 * n + Text.digitValue d) ds

def spanDigits (cs : List Char) : List Char × List Char := cs.span Text.isDigit

def wholeDigits : Reader (List Char)
  | [] => .error ⟨.endOfValue, [], 0⟩
  | '0' :: rest =>
    match rest with
    | c :: more =>
      if Text.isDigit c then .error ⟨.badNumber, c :: more, 1⟩ else .ok (['0'], c :: more)
    | [] => .ok (['0'], [])
  | c :: rest =>
    if Text.isDigit c then .ok (spanDigits (c :: rest)) else .error ⟨.badNumber, c :: rest, 1⟩

def fractionDigits : Reader (Option (List Char))
  | '.' :: rest =>
    match spanDigits rest with
    | ([], []) => .error ⟨.endOfValue, [], 0⟩
    | ([], r) => .error ⟨.badNumber, r, 1⟩
    | (ds, r) => .ok (some ds, r)
  | cs => .ok (none, cs)

structure Exponent where
  negative : Bool
  digits : List Char

def exponentDigits (negative : Bool) (cs : List Char) :
    Except Fault (Option Exponent × List Char) :=
  match spanDigits cs with
  | ([], []) => .error ⟨.endOfValue, [], 0⟩
  | ([], r) => .error ⟨.badNumber, r, 1⟩
  | (ds, r) => .ok (some ⟨negative, ds⟩, r)

def exponentPart : Reader (Option Exponent)
  | c :: rest =>
    if c = 'e' || c = 'E' then
      match rest with
      | '+' :: r => exponentDigits false r
      | '-' :: r => exponentDigits true r
      | r => exponentDigits false r
    else .ok (none, c :: rest)
  | [] => .ok (none, [])

/-- The value of exponent digits, or the digits left after the first one that takes it beyond
`2 ^ 31 - 1`. -/
def exponentValue (n : Nat) : List Char → Except (List Char) Nat
  | [] => .ok n
  | d :: ds =>
    let m := 10 * n + Text.digitValue d
    if 0x80000000 ≤ m then .error ds else exponentValue m ds

def signedZero (negative : Bool) : Double := if negative then Double.zero.neg else Double.zero

def realNumber (negative : Bool) (digits : Nat) (exponent : Int) (rest : List Char) :
    Except Fault (Number × List Char) :=
  (Double.ofLiteral? negative digits exponent).elim (.error ⟨.numberTooLarge, rest, 0⟩)
    fun x => .ok (.real x, rest)

def wholeNumber (negative : Bool) (n : Nat) (rest : List Char) :
    Except Fault (Number × List Char) :=
  if negative then
    if n = 0 then .ok (.real (signedZero true), rest)
    else match Integer.ofInt? (-(n : Int)) with
      | some k => .ok (.int k, rest)
      | none => realNumber true n 0 rest
  else match Integer.ofInt? n with
    | some k => .ok (.int k, rest)
    | none => realNumber false n 0 rest

def unsignedNumber (negative : Bool) : Reader Number :=
  wholeDigits.andThen fun whole => fractionDigits.andThen fun fraction =>
    exponentPart.andThen fun exponent => fun rest =>
      let (n, dropped) := absorb 0 whole
      let (m, scale) : Nat × Int :=
        match fraction with
        | none => (n, dropped.length)
        | some ds =>
          let (m, left) := absorb n ds
          (m, (dropped.length : Int) - (ds.length - left.length))
      match exponent with
      | none =>
        if fraction.isNone && dropped.isEmpty then wholeNumber negative n rest
        else realNumber negative m scale rest
      | some e =>
        match exponentValue 0 e.digits with
        | .ok k => realNumber negative m (if e.negative then scale - k else scale + k) rest
        | .error unread =>
          if m ≠ 0 && !e.negative then .error ⟨.numberTooLarge, unread ++ rest, 0⟩
          else .ok (.real (signedZero negative), rest)

def number : Reader Number
  | '-' :: rest => unsignedNumber true rest
  | cs => unsignedNumber false cs

def skipExponent : Reader Unit
  | c :: rest =>
    if c = 'e' || c = 'E' then
      let r :=
        match rest with
        | '+' :: r => r
        | '-' :: r => r
        | r => r
      match r with
      | [] => .error ⟨.badNumber, [], 0⟩
      | d :: more =>
        if Text.isDigit d then .ok ((), more.dropWhile Text.isDigit)
        else .error ⟨.badNumber, d :: more, 1⟩
    else .ok ((), c :: rest)
  | [] => .ok ((), [])

def skipFraction : Reader Unit
  | '.' :: rest =>
    match spanDigits rest with
    | ([], r) => .error ⟨.badNumber, r, 1⟩
    | (_, r) => skipExponent r
  | cs => skipExponent cs

def skipUnsigned : Reader Unit
  | '0' :: c :: rest =>
    if Text.isDigit c then .error ⟨.badNumber, c :: rest, 1⟩ else skipFraction (c :: rest)
  | c :: rest =>
    if Text.isDigit c then skipFraction (rest.dropWhile Text.isDigit)
    else .error ⟨.badNumber, c :: rest, 1⟩
  | [] => .error ⟨.badNumber, [], 0⟩

end Mockup.Json.Reader
