/-! Sets of characters as sorted tables of ranges of code points, both ends included. -/

namespace Mockup.Text

def inRanges (table : List (Nat × Nat)) (c : Char) : Bool :=
  table.any fun r => r.1 ≤ c.toNat && c.toNat ≤ r.2

end Mockup.Text
