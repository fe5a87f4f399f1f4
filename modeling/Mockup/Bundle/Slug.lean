import Mockup.Text.Blank
import Mockup.Text.LowerCase

/-! Slugs: names for directories and addresses, made from titles. -/

namespace Mockup.Slug

def isLetterOrDigit (c : Char) : Bool := ('a' ≤ c && c ≤ 'z') || ('0' ≤ c && c ≤ '9')

def isAllowed (c : Char) : Bool := isLetterOrDigit c || c = '-'

/-- Writes one dash for every run of other characters that an allowed one follows; `pending` says
that such a run has just been read. -/
def collapse (pending : Bool) : List Char → List Char
  | [] => []
  | c :: cs =>
    if isAllowed c then
      if pending then '-' :: c :: collapse false cs else c :: collapse false cs
    else collapse true cs

def stripDashes (cs : List Char) : List Char := Text.strip (· = '-') cs

def ofTitle? (title : String) : Option String :=
  match stripDashes (collapse false (Text.lowerCase title).toList) with
  | [] => none
  | c :: cs => some (String.ofList (c :: cs))

/-- The slug of a title; `spare` is drawn at random and serves titles that leave nothing. -/
def ofTitle (spare title : String) : String := (ofTitle? title).getD spare

end Mockup.Slug
