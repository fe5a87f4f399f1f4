import Mockup.Json.Value
import Mockup.Number.Layout
import Mockup.Text.Hex

/-! JSON text, compact and indented. Strings escape quotes, backslashes and the characters below
U+0020 and nothing else. -/

namespace Mockup.Json

def escapeChar (c : Char) : List Char :=
  if c = '"' then ['\\', '"']
  else if c = '\\' then ['\\', '\\']
  else if c = '\x08' then ['\\', 'b']
  else if c = '\t' then ['\\', 't']
  else if c = '\n' then ['\\', 'n']
  else if c = '\x0c' then ['\\', 'f']
  else if c = '\r' then ['\\', 'r']
  else if c.toNat < 0x20 then
    ['\\', 'u', '0', '0', Text.hexDigit (c.toNat / 16), Text.hexDigit (c.toNat % 16)]
  else [c]

def quoted (s : String) : List Char := '"' :: (s.toList.flatMap escapeChar ++ ['"'])

def Number.print : Number → List Char
  | .int n => Text.integer n.val
  | .real x => Mockup.Number.Layout.json.write x

namespace Value

mutual

def print : Value → List Char
  | .null => ['n', 'u', 'l', 'l']
  | .bool true => ['t', 'r', 'u', 'e']
  | .bool false => ['f', 'a', 'l', 's', 'e']
  | .number n => n.print
  | .text s => quoted s
  | .list items => '[' :: (printItems items ++ [']'])
  | .object m => '\x7b' :: (printMembers m ++ ['\x7d'])

def printItems : List Value → List Char
  | [] => []
  | [v] => print v
  | v :: w :: vs => print v ++ ',' :: printItems (w :: vs)

def printMembers : List (String × Value) → List Char
  | [] => []
  | [(k, v)] => quoted k ++ ':' :: print v
  | (k, v) :: p :: m => quoted k ++ ':' :: (print v ++ ',' :: printMembers (p :: m))

end

def compact (v : Value) : String := String.ofList v.print

def newline (depth : Nat) : List Char := '\n' :: List.replicate (2 * depth) ' '

mutual

def printIndented (depth : Nat) : Value → List Char
  | .list [] => ['[', ']']
  | .list (v :: vs) =>
    '[' :: (newline (depth + 1) ++ indentedItems (depth + 1) (v :: vs) ++ newline depth ++ [']'])
  | .object [] => ['\x7b', '\x7d']
  | .object (p :: m) =>
    '\x7b' ::
      (newline (depth + 1) ++ indentedMembers (depth + 1) (p :: m) ++ newline depth ++ ['\x7d'])
  | .null => ['n', 'u', 'l', 'l']
  | .bool true => ['t', 'r', 'u', 'e']
  | .bool false => ['f', 'a', 'l', 's', 'e']
  | .number n => n.print
  | .text s => quoted s

def indentedItems (depth : Nat) : List Value → List Char
  | [] => []
  | [v] => printIndented depth v
  | v :: w :: vs => printIndented depth v ++ ',' :: (newline depth ++ indentedItems depth (w :: vs))

def indentedMembers (depth : Nat) : List (String × Value) → List Char
  | [] => []
  | [(k, v)] => quoted k ++ ':' :: ' ' :: printIndented depth v
  | (k, v) :: p :: m =>
    quoted k ++ ':' :: ' ' ::
      (printIndented depth v ++ ',' :: (newline depth ++ indentedMembers depth (p :: m)))

end

def indented (v : Value) : String := String.ofList (v.printIndented 0)

end Value

end Mockup.Json
