/-! Powers of two and of ten. -/

namespace Mockup.Number

def twoPow (n : Nat) : Nat := 1 <<< n

def tenPow (n : Nat) : Nat := Nat.pow 10 n

end Mockup.Number
