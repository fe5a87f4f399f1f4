/-! Lines and separators. A line ends at a line feed, and a carriage return before it is no part
of the line. -/

namespace Mockup.Text

/-- Splits at every occurrence of a separator; there is always one piece more than separators. -/
def splitAt (sep : Char) : List Char → List (List Char)
  | [] => [[]]
  | c :: cs =>
    if c = sep then [] :: splitAt sep cs
    else match splitAt sep cs with
      | [] => [[c]]
      | piece :: pieces => (c :: piece) :: pieces

def dropReturn (line : List Char) : List Char :=
  if line.getLast? = some '\r' then line.dropLast else line

/-- The lines of a text. Nothing follows a line feed that ends the text, and only a line that a
line feed ends loses its carriage return. -/
def linesOf : List (List Char) → List (List Char)
  | [] => []
  | [last] => if last.isEmpty then [] else [last]
  | line :: rest => dropReturn line :: linesOf rest

def lines (cs : List Char) : List (List Char) := linesOf (splitAt '\n' cs)

end Mockup.Text
