import Mockup.Yaml.Node
import Mockup.Yaml.Scalar

/-! Reads YAML documents: block mappings and lists, flow collections, and quoted and plain scalars.
Anchors, tags, block scalars and explicit keys are refused. -/

namespace Mockup.Yaml

def quoted? (c : Cursor) : Option (Option (Node × Cursor)) :=
  let fuel := c.rest.length + 1
  match c.rest with
  | '\x27' :: _ =>
    some ((singleQuoted fuel c.next).map fun p => (.scalar (String.ofList p.1) false, p.2))
  | '"' :: _ =>
    some ((doubleQuoted fuel c.next).map fun p => (.scalar (String.ofList p.1) false, p.2))
  | _ => none

def plain? (inFlow : Bool) (column : Nat) (c : Cursor) : Option (Node × Cursor) :=
  if startsPlain inFlow c.rest then
    let (text, d) := plainLine inFlow c
    let (more, e) := plainMore inFlow column (d.rest.length + 1) d
    some (.scalar (String.ofList (text ++ more)) true, e)
  else none

mutual

def flowNode : Nat → Cursor → Option (Node × Cursor)
  | 0, _ => none
  | fuel + 1, c =>
    match c.rest with
    | '[' :: _ => (flowItems fuel (skipBlank c.next)).map fun p => (.list p.1, p.2)
    | '\x7b' :: _ => (flowMembers fuel (skipBlank c.next)).map fun p => (.mapping p.1, p.2)
    | _ => (quoted? c).getD (plain? true 0 c)

def flowValue : Nat → Cursor → Option (Node × Cursor)
  | 0, _ => none
  | fuel + 1, c =>
    match c.rest with
    | [] => none
    | x :: _ => if [',', ']', '\x7d'].contains x then some (.nothing, c) else flowNode fuel c

def flowEntry : Nat → Cursor → Option ((Node × Option Node) × Cursor)
  | 0, _ => none
  | fuel + 1, c =>
    (flowNode fuel c).bind fun p =>
      let d := skipBlank p.2
      match d.rest with
      | ':' :: _ =>
        (flowValue fuel (skipBlank d.next)).map fun q => ((p.1, some q.1), q.2)
      | _ => some ((p.1, none), d)

def flowItems : Nat → Cursor → Option (List Node × Cursor)
  | 0, _ => none
  | fuel + 1, c =>
    match c.rest with
    | ']' :: _ => some ([], c.next)
    | _ =>
      (flowEntry fuel c).bind fun p =>
        let item :=
          match p.1 with
          | (key, some v) => .mapping [(key, v)]
          | (node, none) => node
        let d := skipBlank p.2
        match d.rest with
        | ',' :: _ => (flowItems fuel (skipBlank d.next)).map fun q => (item :: q.1, q.2)
        | ']' :: _ => some ([item], d.next)
        | _ => none

def flowMembers : Nat → Cursor → Option (List (Node × Node) × Cursor)
  | 0, _ => none
  | fuel + 1, c =>
    match c.rest with
    | '\x7d' :: _ => some ([], c.next)
    | _ =>
      (flowEntry fuel c).bind fun p =>
        let member := (p.1.1, p.1.2.getD .nothing)
        let d := skipBlank p.2
        match d.rest with
        | ',' :: _ => (flowMembers fuel (skipBlank d.next)).map fun q => (member :: q.1, q.2)
        | '\x7d' :: _ => some ([member], d.next)
        | _ => none

end

def inlineNode (column : Nat) (c : Cursor) : Option (Node × Cursor) :=
  match c.rest with
  | '[' :: _ => flowNode (2 * c.rest.length + 2) c
  | '\x7b' :: _ => flowNode (2 * c.rest.length + 2) c
  | _ => (quoted? c).getD (plain? false column c)

def key? (c : Cursor) : Option (Node × Cursor) :=
  let node : Option (Node × Cursor) :=
    match c.rest with
    | '[' :: _ => flowNode (2 * c.rest.length + 2) c
    | '\x7b' :: _ => flowNode (2 * c.rest.length + 2) c
    | _ =>
      (quoted? c).getD
        (if startsPlain false c.rest then
          let (text, d) := plainLine false c
          some (.scalar (String.ofList text) true, d)
        else none)
  node.bind fun p =>
    let d := skipSpaces p.2
    match d.rest with
    | ':' :: rest =>
      let onOneLine := c.rest.length - d.rest.length = d.column - c.column
      if endsWord rest && onOneLine then some (p.1, d.next) else none
    | _ => none

def startsItem : List Char → Bool
  | '-' :: rest => endsWord rest
  | _ => false

def atLineEnd (p : Node × Cursor) : Option (Node × Cursor) :=
  (lineEnd? p.2).map fun d => (p.1, skipToToken d)

mutual

/-- A block node at the next token, if that stands at some column at least; a list may stand at
`listColumn`. -/
def blockNode : Nat → Nat → Nat → Cursor → Option (Node × Cursor)
  | 0, _, _, _ => none
  | fuel + 1, column, listColumn, c =>
    if atDocumentEnd c then some (.nothing, c)
    else if startsItem c.rest then
      if listColumn ≤ c.column then
        (blockItems fuel c.column c).map fun p => (.list p.1, p.2)
      else some (.nothing, c)
    else if c.column < column then some (.nothing, c)
    else if (key? c).isSome then
      (blockMembers fuel c.column c).map fun p => (.mapping p.1, p.2)
    else (inlineNode column c).bind atLineEnd

def blockItems : Nat → Nat → Cursor → Option (List Node × Cursor)
  | 0, _, _ => none
  | fuel + 1, column, c =>
    if !atDocumentEnd c && c.column = column && startsItem c.rest then
      (blockNode fuel (column + 1) (column + 1) (skipToToken c.next)).bind fun p =>
        (blockItems fuel column p.2).map fun q => (p.1 :: q.1, q.2)
    else if !atDocumentEnd c && column < c.column then none
    else some ([], c)

/-- The members of a mapping whose keys stand at a column. -/
def blockMembers : Nat → Nat → Cursor → Option (List (Node × Node) × Cursor)
  | 0, _, _ => none
  | fuel + 1, column, c =>
    if atDocumentEnd c || c.column < column then some ([], c)
    else if column < c.column then none
    else
      (key? c).bind fun k =>
        (blockValue fuel column k.2).bind fun p =>
          (blockMembers fuel column p.2).map fun q => ((k.1, p.1) :: q.1, q.2)

def blockValue : Nat → Nat → Cursor → Option (Node × Cursor)
  | 0, _, _ => none
  | fuel + 1, column, c =>
    match lineEnd? c with
    | some d => blockNode fuel (column + 1) column (skipToToken d)
    | none =>
      let d := skipSpaces c
      if startsItem d.rest then none else (inlineNode (column + 1) d).bind atLineEnd

end

def documentStart (c : Cursor) : Cursor :=
  if atMarker '-' c then skipToToken (c.skip 3) else c

def unifyBreaks : List Char → List Char
  | '\r' :: '\n' :: cs => '\n' :: unifyBreaks cs
  | '\r' :: cs => '\n' :: unifyBreaks cs
  | c :: cs => c :: unifyBreaks cs
  | [] => []

def atEnd (c : Cursor) : Bool :=
  c.rest.isEmpty || (atMarker '.' c && (skipToToken (c.skip 3)).rest.isEmpty)

def read? (text : String) : Option Node :=
  let c := documentStart (skipToToken (.start (unifyBreaks text.toList)))
  (blockNode (4 * c.rest.length + 4) 0 0 c).bind fun p => if atEnd p.2 then some p.1 else none

end Mockup.Yaml
