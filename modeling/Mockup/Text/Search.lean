/-! Texts within texts. -/

namespace Mockup.Text

def occursIn (needle : List Char) : List Char → Bool
  | [] => needle.isEmpty
  | c :: cs => needle.isPrefixOf (c :: cs) || occursIn needle cs

end Mockup.Text
