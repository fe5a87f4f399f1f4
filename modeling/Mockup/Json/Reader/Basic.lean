import Mockup.Json.Fault

/-! Readers of JSON text: functions from the unread text to a result and the text that is left. -/

namespace Mockup.Json

abbrev Reader (α : Type) := List Char → Except Fault (α × List Char)

namespace Reader

variable {α β σ : Type}

def done (x : α) : Reader α := fun cs => .ok (x, cs)

def fail (cause : Cause) (ahead : Nat) : Reader α := fun cs => .error ⟨cause, cs, ahead⟩

def andThen (r : Reader α) (f : α → Reader β) : Reader β := fun cs =>
  match r cs with
  | .ok (x, rest) => f x rest
  | .error e => .error e

def map (f : α → β) (r : Reader α) : Reader β := fun cs =>
  match r cs with
  | .ok (x, rest) => .ok (f x, rest)
  | .error e => .error e

def isSpace (c : Char) : Bool := c = ' ' || c = '\n' || c = '\t' || c = '\r'

def skipSpace (cs : List Char) : List Char := cs.dropWhile isSpace

def letters : List Char → Reader Unit
  | [], cs => .ok ((), cs)
  | _ :: _, [] => .error ⟨.endOfValue, [], 0⟩
  | l :: ls, c :: cs => if c = l then letters ls cs else .error ⟨.badWord, c :: cs, 1⟩

def moreItems (item : Reader α) : Nat → Reader (List α)
  | 0, cs => .error ⟨.endOfList, cs, 0⟩
  | fuel + 1, cs =>
    match skipSpace cs with
    | [] => .error ⟨.endOfList, [], 0⟩
    | ']' :: rest => .ok ([], rest)
    | ',' :: rest =>
      match skipSpace rest with
      | [] => .error ⟨.endOfValue, [], 0⟩
      | ']' :: r => .error ⟨.trailingComma, ']' :: r, 1⟩
      | r => (item.andThen fun x => (moreItems item fuel).map (x :: ·)) r
    | c :: rest => .error ⟨.noCommaInList, c :: rest, 1⟩

def items (item : Reader α) : Reader (List α) := fun cs =>
  match skipSpace cs with
  | [] => .error ⟨.endOfList, [], 0⟩
  | ']' :: rest => .ok ([], rest)
  | rest => (item.andThen fun x => (fun r => ((moreItems item (r.length + 1)).map (x :: ·)) r)) rest

def moreMembers (member : σ → Reader σ) : Nat → σ → Reader σ
  | 0, _, cs => .error ⟨.endOfObject, cs, 0⟩
  | fuel + 1, s, cs =>
    match skipSpace cs with
    | [] => .error ⟨.endOfObject, [], 0⟩
    | '\x7d' :: rest => .ok (s, rest)
    | ',' :: rest =>
      match skipSpace rest with
      | [] => .error ⟨.endOfValue, [], 0⟩
      | '"' :: r => ((member s).andThen fun s => moreMembers member fuel s) ('"' :: r)
      | '\x7d' :: r => .error ⟨.trailingComma, '\x7d' :: r, 1⟩
      | r => .error ⟨.keyNotText, r, 1⟩
    | c :: rest => .error ⟨.noCommaInObject, c :: rest, 1⟩

def members (member : σ → Reader σ) (s : σ) : Reader σ := fun cs =>
  match skipSpace cs with
  | [] => .error ⟨.endOfObject, [], 0⟩
  | '\x7d' :: rest => .ok (s, rest)
  | '"' :: r =>
    ((member s).andThen fun s rest => moreMembers member (rest.length + 1) s rest) ('"' :: r)
  | r => .error ⟨.keyNotText, r, 1⟩

def colon : Reader Unit := fun cs =>
  match skipSpace cs with
  | [] => .error ⟨.endOfObject, [], 0⟩
  | ':' :: rest => .ok ((), rest)
  | rest => .error ⟨.noColon, rest, 1⟩

def finish (x : α) (cs : List Char) : Except Fault α :=
  match skipSpace cs with
  | [] => .ok x
  | rest => .error ⟨.trailingText, rest, 1⟩

def runAll (r : Reader α) (cs : List Char) : Except Fault α :=
  match r cs with
  | .ok (x, rest) => finish x rest
  | .error e => .error e

end Reader

end Mockup.Json
