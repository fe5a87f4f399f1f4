import Mockup.Json.Reader.Value

/-! Decoding JSON into data. A decoder reads text, reporting the first thing in it that does not
fit, and it reads values, reporting only whether they fit. -/

namespace Mockup.Json

structure Decoder (α : Type) where
  /-- Reads the data from text with at most the given number of levels. -/
  read : Nat → Reader α
  ofValue? : Value → Option α

namespace Reader

def mismatch {α : Type} (wanted : String) : Reader α := fun cs =>
  match cs with
  | [] => .error ⟨.endOfValue, [], 0⟩
  | c :: rest =>
    let scalarFault (r : Except Fault (Found × List Char)) : Except Fault (α × List Char) :=
      match r with
      | .ok (found, unread) => .error ⟨.wrongType found wanted, unread, 0⟩
      | .error e => .error e
    if c = 'n' then scalarFault ((letters ['u', 'l', 'l']).map (fun _ => .null) rest)
    else if c = 't' then scalarFault ((letters ['r', 'u', 'e']).map (fun _ => .bool true) rest)
    else if c = 'f' then
      scalarFault ((letters ['a', 'l', 's', 'e']).map (fun _ => .bool false) rest)
    else if c = '-' || Text.isDigit c then scalarFault (number.map .number (c :: rest))
    else if c = '"' then scalarFault (quotedText.map .text (c :: rest))
    else if c = '[' then .error ⟨.wrongType .list wanted, c :: rest, 0⟩
    else if c = '\x7b' then .error ⟨.wrongType .object wanted, c :: rest, 0⟩
    else .error ⟨.noValue, c :: rest, 1⟩

def atValue {α : Type} (r : Char → Reader α) : Reader α := fun cs =>
  match skipSpace cs with
  | [] => .error ⟨.endOfValue, [], 0⟩
  | c :: rest => r c (c :: rest)

def deeper {α : Type} (levels : Nat) (r : Nat → Reader α) : Reader α := fun cs =>
  match levels with
  | 0 => .error ⟨.tooDeep, cs, 1⟩
  | n + 1 => r n cs.tail

end Reader

namespace Decoder

variable {α β : Type}

def map (f : α → β) (d : Decoder α) : Decoder β where
  read levels := (d.read levels).map f
  ofValue? v := (d.ofValue? v).map f

def value : Decoder Value where
  read := Reader.value
  ofValue? v := some v

def textAs (wanted : String) : Decoder String where
  read _ := Reader.atValue fun c =>
    if c = '"' then Reader.quotedText else Reader.mismatch wanted
  ofValue? := Value.text?

def text : Decoder String := textAs "a string"

def optional (d : Decoder α) : Decoder (Option α) where
  read levels := fun cs =>
    match Reader.skipSpace cs with
    | 'n' :: rest => (Reader.letters ['u', 'l', 'l']).map (fun _ => none) rest
    | _ => (d.read levels).map some cs
  ofValue? v :=
    match v with
    | .null => some none
    | v => (d.ofValue? v).map some

def list (d : Decoder α) : Decoder (List α) where
  read levels := Reader.atValue fun c =>
    if c = '[' then Reader.deeper levels fun n => Reader.items (d.read n)
    else Reader.mismatch "a sequence"
  ofValue? v :=
    match v with
    | .list items => items.mapM d.ofValue?
    | _ => none

def texts : Decoder (List String) := list text

def object : Decoder Members where
  read levels := Reader.atValue fun c =>
    if c = '\x7b' then
      Reader.deeper levels fun n => Reader.members (Reader.freeMember (Reader.value n)) []
    else Reader.mismatch "a map"
  ofValue? := Value.object?

def setEntry (key : String) (x : α) : List (String × α) → List (String × α)
  | [] => [(key, x)]
  | (k, y) :: rest =>
    if key < k then (key, x) :: (k, y) :: rest
    else if key = k then (key, x) :: rest
    else (k, y) :: setEntry key x rest

def entries (d : Decoder α) : Decoder (List (String × α)) where
  read levels := Reader.atValue fun c =>
    if c = '\x7b' then
      Reader.deeper levels fun n =>
        Reader.members (fun m => Reader.quotedText.andThen fun key => Reader.colon.andThen fun _ =>
          (d.read n).map fun x => setEntry key x m) []
    else Reader.mismatch "a map"
  ofValue? v :=
    match v with
    | .object m => m.mapM fun p => (d.ofValue? p.2).map fun x => (p.1, x)
    | _ => none

def chosen (names : List (String × α)) : Reader α :=
  Reader.quotedText.andThen fun name rest =>
    match names.lookup name with
    | some x => .ok (x, rest)
    | none => .error ⟨.unknownVariant name (names.map Prod.fst), rest, 0⟩

def noContent : Reader Unit :=
  Reader.atValue fun c =>
    if c = 'n' then Reader.letters ['n', 'u', 'l', 'l'] else Reader.mismatch "unit"

def endVariant (x : α) : Reader α := fun cs =>
  match Reader.skipSpace cs with
  | [] => .error ⟨.endOfObject, [], 0⟩
  | '\x7d' :: rest => .ok (x, rest)
  | rest => .error ⟨.noValue, rest, 0⟩

/-- One of a fixed set of names, given as a string or as the only key of an object with the value
`null`. -/
def variant (names : List (String × α)) : Decoder α where
  read levels := Reader.atValue fun c =>
    if c = '"' then chosen names
    else if c = '\x7b' then
      Reader.deeper levels fun _ =>
        (Reader.atValue fun c =>
          if c = '"' then chosen names else Reader.mismatch "variant identifier").andThen fun x =>
            Reader.colon.andThen fun _ => noContent.andThen fun _ => endVariant x
    else Reader.fail .noValue 1
  ofValue? v :=
    match v with
    | .text name => names.lookup name
    | .object [(name, .null)] => names.lookup name
    | _ => none

def natural (bits : Nat) (wanted : String) : Decoder Nat where
  read _ := Reader.atValue fun c =>
    if c = '-' || Text.isDigit c then
      Reader.number.andThen fun n => fun rest =>
        match n with
        | .int k =>
          if 0 ≤ k.val ∧ k.val < Number.twoPow bits then .ok (k.val.toNat, rest)
          else .error ⟨.outOfRange k.val wanted, rest, 0⟩
        | .real x => .error ⟨.wrongType (.number (.real x)) wanted, rest, 0⟩
    else Reader.mismatch wanted
  ofValue? v :=
    match v with
    | .number (.int k) => if 0 ≤ k.val ∧ k.val < Number.twoPow bits then some k.val.toNat else none
    | _ => none

def nearest (n : Number) : Mockup.Number.Double :=
  match n with
  | .int k => (Mockup.Number.Double.ofRatio? (k.val < 0) k.val.natAbs 1).getD .zero
  | .real x => x

def double : Decoder Mockup.Number.Double where
  read _ := Reader.atValue fun c =>
    if c = '-' || Text.isDigit c then Reader.number.map nearest
    else Reader.mismatch "f64"
  ofValue? v :=
    match v with
    | .number n => some (nearest n)
    | _ => none

def decode (d : Decoder α) (s : String) : Except Fault α :=
  (d.read Reader.maxLevels).runAll s.toList

end Decoder

end Mockup.Json
