import Mockup.Json.Reader.Basic
import Mockup.Text.Hex

/-! Reading strings. Escaped surrogates have to come in pairs. -/

namespace Mockup.Json.Reader

def hexUnit? (a b c d : Char) : Option Nat := Text.ofHex? [a, b, c, d]

def hexFault (cs : List Char) : Fault :=
  if (String.ofList cs).utf8ByteSize < 4 then ⟨.endOfText, [], 0⟩ else ⟨.badEscape, cs, 4⟩

def isLeading (n : Nat) : Bool := 0xd800 ≤ n && n ≤ 0xdbff

def isTrailing (n : Nat) : Bool := 0xdc00 ≤ n && n ≤ 0xdfff

def paired (lead trail : Nat) : Char :=
  Char.ofNat ((lead - 0xd800) * 0x400 + (trail - 0xdc00) + 0x10000)

def shortEscape? (c : Char) : Option Char :=
  if c = '"' then some '"'
  else if c = '\\' then some '\\'
  else if c = '/' then some '/'
  else if c = 'b' then some '\x08'
  else if c = 'f' then some '\x0c'
  else if c = 'n' then some '\n'
  else if c = 'r' then some '\r'
  else if c = 't' then some '\t'
  else none

/-- Reads the rest of a string, up to and with its closing quote; `acc` holds the characters so
far, the last one first. -/
def textBody (acc : List Char) : List Char → Except Fault (List Char × List Char)
  | [] => .error ⟨.endOfText, [], 0⟩
  | '"' :: rest => .ok (acc.reverse, rest)
  | '\\' :: 'u' :: a :: b :: c :: d :: rest =>
    match hexUnit? a b c d with
    | none => .error (hexFault (a :: b :: c :: d :: rest))
    | some n =>
      if isTrailing n then .error ⟨.loneSurrogate, rest, 0⟩
      else if isLeading n then
        match rest with
        | '\\' :: 'u' :: e :: f :: g :: h :: more =>
          match hexUnit? e f g h with
          | none => .error (hexFault (e :: f :: g :: h :: more))
          | some m =>
            if isTrailing m then textBody (paired n m :: acc) more
            else .error ⟨.loneSurrogate, more, 0⟩
        | '\\' :: 'u' :: more => .error (hexFault more)
        | [] => .error ⟨.endOfText, [], 0⟩
        | ['\\'] => .error ⟨.endOfText, [], 0⟩
        | '\\' :: more => .error ⟨.unfinishedSurrogate, more, 1⟩
        | more => .error ⟨.unfinishedSurrogate, more, 1⟩
      else textBody (Char.ofNat n :: acc) rest
  | '\\' :: 'u' :: rest => .error (hexFault rest)
  | ['\\'] => .error ⟨.endOfText, [], 0⟩
  | '\\' :: c :: rest =>
    match shortEscape? c with
    | some e => textBody (e :: acc) rest
    | none => .error ⟨.badEscape, c :: rest, 1⟩
  | c :: rest =>
    if c.toNat < 0x20 then .error ⟨.controlCharacter, rest, 0⟩ else textBody (c :: acc) rest

def quotedText : Reader String
  | '"' :: rest =>
    match textBody [] rest with
    | .ok (s, r) => .ok (String.ofList s, r)
    | .error e => .error e
  | cs => .error ⟨.noValue, cs, 1⟩

def skipTextBody : List Char → Except Fault (Unit × List Char)
  | [] => .error ⟨.endOfText, [], 0⟩
  | '"' :: rest => .ok ((), rest)
  | '\\' :: 'u' :: a :: b :: c :: d :: rest =>
    match hexUnit? a b c d with
    | none => .error (hexFault (a :: b :: c :: d :: rest))
    | some _ => skipTextBody rest
  | '\\' :: 'u' :: rest => .error (hexFault rest)
  | ['\\'] => .error ⟨.endOfText, [], 0⟩
  | '\\' :: c :: rest =>
    match shortEscape? c with
    | some _ => skipTextBody rest
    | none => .error ⟨.badEscape, c :: rest, 1⟩
  | c :: rest =>
    if c.toNat < 0x20 then .error ⟨.controlCharacter, c :: rest, 0⟩ else skipTextBody rest

end Mockup.Json.Reader
