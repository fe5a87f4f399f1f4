import Mockup.Json.Decoder

/-! Records as JSON objects. One description of a record's fields serves writing and reading: fields
are written in their order, and read by key in any order or, from a list, by place. -/

namespace Mockup.Json

inductive Absence where
  | refused
  | ofObject
  | allowed
deriving DecidableEq

structure Field (α : Type) where
  key : String
  absence : Absence
  member? : α → Option Value
  update : Decoder (α → α)

structure Record (α : Type) where
  name : String
  blank : α
  fields : List (Field α)

namespace Record

variable {α : Type}

def members (r : Record α) (x : α) : List (String × Value) :=
  r.fields.filterMap fun f => (f.member? x).map fun v => (f.key, v)

def ordered (r : Record α) (x : α) : Value := .object (r.members x)

def toValue (r : Record α) (x : α) : Value := (r.ordered x).normal

def described (r : Record α) : String := "struct " ++ r.name

def field? (r : Record α) (key : String) : Option (Field α) := r.fields.find? fun f => f.key = key

def missing? (r : Record α) (seen : List String) : Option String :=
  (r.fields.find? fun f => f.absence = .refused && !seen.contains f.key).map Field.key

structure Draft (α : Type) where
  result : α
  seen : List String

/-- The fault of a key given twice lies at what follows it, which should be a colon. -/
def repeated (key : String) (rest : List Char) : Fault :=
  match Reader.skipSpace rest with
  | '\x7d' :: r => ⟨.repeatedField key, r, 0⟩
  | r => ⟨.repeatedField key, r, 0⟩

def readMember (r : Record α) (levels : Nat) (draft : Draft α) : Reader (Draft α) :=
  Reader.quotedText.andThen fun key =>
    match r.field? key with
    | some f =>
      if draft.seen.contains key then fun rest => .error (repeated key rest)
      else Reader.colon.andThen fun _ =>
        (f.update.read levels).map fun g => ⟨g draft.result, key :: draft.seen⟩
    | none => Reader.colon.andThen fun _ => Reader.skipValue.map fun _ => draft

def readObject (r : Record α) (levels : Nat) : Reader α :=
  (Reader.members (r.readMember levels) ⟨r.blank, []⟩).andThen fun draft rest =>
    match r.missing? draft.seen with
    | some key => .error ⟨.missingField key, rest, 0⟩
    | none => .ok (draft.result, rest)

def endPlaces (x : α) (cs : List Char) : Except Fault (α × List Char) :=
  match Reader.skipSpace cs with
  | [] => .error ⟨.endOfList, [], 0⟩
  | ']' :: rest => .ok (x, rest)
  | ',' :: rest =>
    match Reader.skipSpace rest with
    | ']' :: r => .error ⟨.trailingComma, ']' :: r, 1⟩
    | r => .error ⟨.trailingText, r, 1⟩
  | rest => .error ⟨.trailingText, rest, 1⟩

def nextPlace (first : Bool) (cs : List Char) : Except Fault (Bool × List Char) :=
  match Reader.skipSpace cs with
  | [] => .error ⟨.endOfList, [], 0⟩
  | ']' :: rest => .ok (false, ']' :: rest)
  | c :: rest =>
    if first then .ok (true, c :: rest)
    else if c = ',' then
      match Reader.skipSpace rest with
      | [] => .error ⟨.endOfValue, [], 0⟩
      | ']' :: r => .error ⟨.trailingComma, ']' :: r, 1⟩
      | r => .ok (true, r)
    else .error ⟨.noCommaInList, c :: rest, 1⟩

def readPlaces (r : Record α) (levels : Nat) : List (Field α) → Nat → α → Reader α
  | [], _, x, cs => endPlaces x cs
  | f :: fs, place, x, cs =>
    match nextPlace (place = 0) cs with
    | .error e => .error e
    | .ok (true, rest) =>
      ((f.update.read levels).andThen fun g => readPlaces r levels fs (place + 1) (g x)) rest
    | .ok (false, rest) =>
      if f.absence = .allowed then readPlaces r levels fs (place + 1) x rest
      else .error ⟨.wrongLength place r.described r.fields.length, rest.tail, 0⟩

def updateOfMembers (r : Record α) : Members → α → Option α
  | [], x => some x
  | (key, v) :: m, x =>
    match r.field? key with
    | some f => (f.update.ofValue? v).bind fun g => updateOfMembers r m (g x)
    | none => updateOfMembers r m x

def updateOfPlaces : List (Field α) → List Value → α → Option α
  | [], [], x => some x
  | [], _ :: _, _ => none
  | f :: fs, [], x => if f.absence = .allowed then updateOfPlaces fs [] x else none
  | f :: fs, v :: vs, x => (f.update.ofValue? v).bind fun g => updateOfPlaces fs vs (g x)

def ofValue? (r : Record α) (v : Value) : Option α :=
  match v with
  | .object m =>
    if (r.missing? (m.map Prod.fst)).isNone then r.updateOfMembers m r.blank else none
  | .list vs => updateOfPlaces r.fields vs r.blank
  | _ => none

def decoder (r : Record α) : Decoder α where
  read levels := Reader.atValue fun c =>
    if c = '\x7b' then Reader.deeper levels fun n => r.readObject n
    else if c = '[' then Reader.deeper levels fun n => readPlaces r n r.fields 0 r.blank
    else Reader.mismatch r.described
  ofValue? := r.ofValue?

end Record

namespace Field

variable {α β : Type}

def required (key : String) (d : Decoder β) (write : β → Value) (get : α → β)
    (set : β → α → α) : Field α where
  key
  absence := .refused
  member? x := some (write (get x))
  update := d.map set

/-- A field that is always written and has a default when it is not given. -/
def defaulted (key : String) (d : Decoder β) (write : β → Value) (get : α → β)
    (set : β → α → α) : Field α where
  key
  absence := .allowed
  member? x := some (write (get x))
  update := d.map set

/-- A field that is left out when it has no value. -/
def optional (key : String) (d : Decoder β) (write : β → Value) (get : α → Option β)
    (set : Option β → α → α) : Field α where
  key
  absence := .allowed
  member? x := (get x).map write
  update := d.optional.map set

/-- A field that is read and never written. -/
def unwritten (key : String) (d : Decoder β) (set : β → α → α) : Field α where
  key
  absence := .allowed
  member? _ := none
  update := d.map set

/-- A field without a default of its own, which is left out when it has no value. A list must give
it. -/
def named (key : String) (d : Decoder β) (write : β → Value) (get : α → Option β)
    (set : Option β → α → α) : Field α where
  key
  absence := .ofObject
  member? x := (get x).map write
  update := d.optional.map set

end Field

end Mockup.Json
