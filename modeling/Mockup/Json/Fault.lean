import Mockup.Json.Printer
import Mockup.Text.Visible

/-! What can be wrong with JSON text, and where. A fault keeps the text that was still unread when
it was found; its position follows from that and from the whole text. -/

namespace Mockup.Json

inductive Found where
  | null
  | bool (b : Bool)
  | number (n : Number)
  | text (s : String)
  | list
  | object

inductive Cause where
  | endOfValue
  | endOfList
  | endOfObject
  | endOfText
  | noColon
  | noCommaInList
  | noCommaInObject
  | badWord
  | noValue
  | badEscape
  | badNumber
  | numberTooLarge
  | loneSurrogate
  | unfinishedSurrogate
  | controlCharacter
  | keyNotText
  | trailingComma
  | trailingText
  | tooDeep
  | wrongType (found : Found) (wanted : String)
  | outOfRange (n : Int) (wanted : String)
  | missingField (key : String)
  | repeatedField (key : String)
  | unknownVariant (name : String) (known : List String)
  | wrongLength (length : Nat) (wanted : String) (size : Nat)

namespace Found

def describe : Found → String
  | .null => "null"
  | .bool b => "boolean `" ++ (if b then "true" else "false") ++ "`"
  | .number (.int n) => "integer `" ++ String.ofList (Text.integer n.val) ++ "`"
  | .number (.real x) =>
    "floating point `" ++ String.ofList (Mockup.Number.Layout.json.write x) ++ "`"
  | .text s => "string " ++ Text.visiblyQuoted s
  | .list => "sequence"
  | .object => "map"

end Found

def inBackticks (s : String) : String := "`" ++ s ++ "`"

def describeKnown : List String → String
  | [] => "there are no variants"
  | [a] => "expected " ++ inBackticks a
  | [a, b] => "expected " ++ inBackticks a ++ " or " ++ inBackticks b
  | names => "expected one of " ++ ", ".intercalate (names.map inBackticks)

namespace Cause

def message : Cause → String
  | .endOfValue => "EOF while parsing a value"
  | .endOfList => "EOF while parsing a list"
  | .endOfObject => "EOF while parsing an object"
  | .endOfText => "EOF while parsing a string"
  | .noColon => "expected `:`"
  | .noCommaInList => "expected `,` or `]`"
  | .noCommaInObject => "expected `,` or `\x7d`"
  | .badWord => "expected ident"
  | .noValue => "expected value"
  | .badEscape => "invalid escape"
  | .badNumber => "invalid number"
  | .numberTooLarge => "number out of range"
  | .loneSurrogate => "lone leading surrogate in hex escape"
  | .unfinishedSurrogate => "unexpected end of hex escape"
  | .controlCharacter => "control character (\\u0000-\\u001F) found while parsing a string"
  | .keyNotText => "key must be a string"
  | .trailingComma => "trailing comma"
  | .trailingText => "trailing characters"
  | .tooDeep => "recursion limit exceeded"
  | .wrongType found wanted => "invalid type: " ++ found.describe ++ ", expected " ++ wanted
  | .outOfRange n wanted =>
    "invalid value: integer `" ++ String.ofList (Text.integer n) ++ "`, expected " ++ wanted
  | .missingField key => "missing field " ++ inBackticks key
  | .repeatedField key => "duplicate field " ++ inBackticks key
  | .unknownVariant name known =>
    "unknown variant " ++ inBackticks name ++ ", " ++ describeKnown known
  | .wrongLength length wanted size =>
    "invalid length " ++ Text.natural length ++ ", expected " ++ wanted ++ " with " ++
      Text.natural size ++ " element" ++ (if size = 1 then "" else "s")

end Cause

structure Fault where
  cause : Cause
  rest : List Char
  /-- How many bytes of the unread text the reported position lies further on. -/
  ahead : Nat

structure Position where
  line : Nat
  column : Nat
deriving DecidableEq

namespace Position

def start : Position := ⟨1, 0⟩

def step (p : Position) (c : Char) : Position :=
  if c = '\n' then ⟨p.line + 1, 0⟩ else ⟨p.line, p.column + c.utf8Size⟩

def skipBytes (p : Position) : Nat → List Char → Position
  | 0, _ => p
  | _, [] => p
  | n + 1, c :: cs =>
    if c.utf8Size ≤ n + 1 then skipBytes (p.step c) (n + 1 - c.utf8Size) cs
    else ⟨p.line, p.column + (n + 1)⟩

end Position

namespace Fault

def position (whole : List Char) (f : Fault) : Position :=
  let consumed := whole.take (whole.length - f.rest.length)
  (consumed.foldl Position.step .start).skipBytes f.ahead f.rest

def message (whole : List Char) (f : Fault) : String :=
  let p := f.position whole
  f.cause.message ++ " at line " ++ Text.natural p.line ++ " column " ++ Text.natural p.column

end Fault

end Mockup.Json
