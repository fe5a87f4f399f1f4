/-! Text in markup. -/

namespace Mockup.Html

def escapeChar (c : Char) : List Char :=
  if c = '&' then "&amp;".toList
  else if c = '<' then "&lt;".toList
  else if c = '>' then "&gt;".toList
  else if c = '"' then "&quot;".toList
  else if c = '\'' then "&#39;".toList
  else [c]

def escape (cs : List Char) : List Char := cs.flatMap escapeChar

def escaped (s : String) : String := String.ofList (escape s.toList)

end Mockup.Html
