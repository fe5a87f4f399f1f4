import Mockup.Json.Reader.Text
import Mockup.Json.Reader.Number

/-! Reading whole values. Lists and objects nest at most 127 levels deep; passing over a value of no
interest knows no such limit. -/

namespace Mockup.Json

namespace Reader

def maxLevels : Nat := 127

def freeMember (value : Reader Value) (m : Members) : Reader Members :=
  quotedText.andThen fun key => colon.andThen fun _ => value.map fun v => m.set key v

def scalar (c : Char) (rest : List Char) : Except Fault (Value × List Char) :=
  if c = 'n' then (letters ['u', 'l', 'l']).map (fun _ => .null) rest
  else if c = 't' then (letters ['r', 'u', 'e']).map (fun _ => .bool true) rest
  else if c = 'f' then (letters ['a', 'l', 's', 'e']).map (fun _ => .bool false) rest
  else if c = '"' then quotedText.map .text (c :: rest)
  else if c = '-' || Text.isDigit c then number.map .number (c :: rest)
  else .error ⟨.noValue, c :: rest, 1⟩

def value : Nat → Reader Value
  | 0, cs =>
    match skipSpace cs with
    | [] => .error ⟨.endOfValue, [], 0⟩
    | c :: rest =>
      if c = '[' || c = '\x7b' then .error ⟨.tooDeep, c :: rest, 1⟩ else scalar c rest
  | levels + 1, cs =>
    match skipSpace cs with
    | [] => .error ⟨.endOfValue, [], 0⟩
    | c :: rest =>
      if c = '[' then (items (value levels)).map .list rest
      else if c = '\x7b' then (members (freeMember (value levels)) []).map .object rest
      else scalar c rest

def skipItems (skip : Reader Unit) : Nat → Reader Unit
  | 0, cs => .error ⟨.endOfList, cs, 0⟩
  | fuel + 1, cs =>
    match skipSpace cs with
    | [] => .error ⟨.endOfList, [], 0⟩
    | ']' :: rest => .ok ((), rest)
    | ',' :: rest => (skip.andThen fun _ => skipItems skip fuel) rest
    | c :: rest => .error ⟨.noCommaInList, c :: rest, 1⟩

def skipMember (skip : Reader Unit) : Reader Unit := fun cs =>
  match skipSpace cs with
  | [] => .error ⟨.endOfObject, [], 0⟩
  | '"' :: rest => andThen skipTextBody (fun _ => andThen colon fun _ => skip) rest
  | rest => .error ⟨.keyNotText, rest, 1⟩

def skipMembers (skip : Reader Unit) : Nat → Reader Unit
  | 0, cs => .error ⟨.endOfObject, cs, 0⟩
  | fuel + 1, cs =>
    match skipSpace cs with
    | [] => .error ⟨.endOfObject, [], 0⟩
    | '\x7d' :: rest => .ok ((), rest)
    | ',' :: rest => ((skipMember skip).andThen fun _ => skipMembers skip fuel) rest
    | c :: rest => .error ⟨.noCommaInObject, c :: rest, 1⟩

def skipScalar (c : Char) (rest : List Char) : Except Fault (Unit × List Char) :=
  if c = 'n' then letters ['u', 'l', 'l'] rest
  else if c = 't' then letters ['r', 'u', 'e'] rest
  else if c = 'f' then letters ['a', 'l', 's', 'e'] rest
  else if c = '"' then skipTextBody rest
  else if c = '-' then skipUnsigned rest
  else if Text.isDigit c then skipUnsigned (c :: rest)
  else .error ⟨.noValue, c :: rest, 1⟩

/-- Passes over a value; the fuel bounds its depth. -/
def skipValueWith : Nat → Reader Unit
  | 0, cs => .error ⟨.endOfValue, cs, 0⟩
  | fuel + 1, cs =>
    match skipSpace cs with
    | [] => .error ⟨.endOfValue, [], 0⟩
    | '[' :: rest =>
      match skipSpace rest with
      | [] => .error ⟨.endOfList, [], 0⟩
      | ']' :: r => .ok ((), r)
      | r => ((skipValueWith fuel).andThen fun _ => skipItems (skipValueWith fuel) r.length) r
    | '\x7b' :: rest =>
      match skipSpace rest with
      | [] => .error ⟨.endOfObject, [], 0⟩
      | '\x7d' :: r => .ok ((), r)
      | r =>
        ((skipMember (skipValueWith fuel)).andThen fun _ =>
          skipMembers (skipValueWith fuel) r.length) r
    | c :: rest => skipScalar c rest

def skipValue : Reader Unit := fun cs => skipValueWith (cs.length + 1) cs

end Reader

def Value.parse (s : String) : Except Fault Value :=
  (Reader.value Reader.maxLevels).runAll s.toList

end Mockup.Json
