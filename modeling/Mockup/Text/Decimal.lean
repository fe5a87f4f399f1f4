/-! Natural numbers and integers in decimal digits. -/

namespace Mockup.Text

def isDigit (c : Char) : Bool := '0' ≤ c && c ≤ '9'

def digitValue (c : Char) : Nat := c.toNat - '0'.toNat

def digits (n : Nat) : List Char := Nat.toDigits 10 n

def natural (n : Nat) : String := String.ofList (digits n)

def integer : Int → List Char
  | .ofNat n => digits n
  | .negSucc n => '-' :: digits (n + 1)

def ofDigits (cs : List Char) : Nat := cs.foldl (fun n c => 10 * n + digitValue c) 0

end Mockup.Text
