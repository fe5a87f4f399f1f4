import Mockup.Files.Disk
import Mockup.Text.Decimal

/-! Listings of a directory tree: each file with its size, and each directory that holds nothing. -/

namespace Mockup.Files

namespace Disk

def isEmptyDir (d : Disk) (l : Location) : Bool :=
  d.entries.all fun p => p.1 = l || !l.isPrefixOf p.1

def listingLine? (d : Disk) (sized : String → Bool) (top : Location) :
    Location × Entry → Option String
  | (l, e) =>
    if l = top || !top.isPrefixOf l then none
    else
      let name := "/".intercalate (l.drop top.length)
      match e with
      | .file text =>
        some (if sized name then name ++ " " ++ Text.natural text.utf8ByteSize else name)
      | .dir => if d.isEmptyDir l then some (name ++ "/") else none

def listing (d : Disk) (sized : String → Bool) (top : Location) : List String :=
  (d.entries.filterMap (d.listingLine? sized top)).mergeSort fun a b => a ≤ b

end Disk

end Mockup.Files
