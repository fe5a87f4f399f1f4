/-! White space and trimming. A character is blank when it has the Unicode property White_Space;
zero-width spaces and the byte order mark do not have it. -/

namespace Mockup.Text

def isBlank (c : Char) : Bool :=
  c = ' ' || ('\t' ≤ c && c ≤ '\r') || c = '\u0085' || c = '\u00a0' || c = '\u1680' ||
    ('\u2000' ≤ c && c ≤ '\u200a') || c = '\u2028' || c = '\u2029' || c = '\u202f' ||
    c = '\u205f' || c = '\u3000'

def dropEnd (p : Char → Bool) (cs : List Char) : List Char :=
  (cs.reverse.dropWhile p).reverse

def strip (p : Char → Bool) (cs : List Char) : List Char :=
  dropEnd p (cs.dropWhile p)

def trim (cs : List Char) : List Char := strip isBlank cs

def trimmed (s : String) : String := String.ofList (trim s.toList)

def trimmedEnd (s : String) : String := String.ofList (dropEnd isBlank s.toList)

def filled? (s : String) : Option String :=
  match trim s.toList with
  | [] => none
  | c :: cs => some (String.ofList (c :: cs))

def isBlankText (s : String) : Bool := s.toList.all isBlank

end Mockup.Text
