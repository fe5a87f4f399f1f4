import Mockup.Json.Printer

/-! Schemas and their violations. A value of the wrong type violates only its type; an object is
checked property by property before its required names, a list item by item before its size. -/

namespace Mockup.Json

inductive Schema where
  | text (minLength : Nat)
  | webAddress
  | choice (names : List String)
  | list (item : Schema) (minItems : Nat)
  | object (properties : List (String × Schema)) (required : List String)
  | mapping (member : Schema)
  | integer (minimum : Int)
  | optionalNumber (minimum maximum : Int)

inductive Violation where
  | notOfType (v : Value) (wanted : String)
  | tooShort (v : Value) (minLength : Nat)
  | noMatch (v : Value) (pattern : String)
  | notAmong (v : Value) (names : List String)
  | tooFew (v : Value) (minItems : Nat)
  | missing (name : String)
  | tooSmall (v : Value) (minimum : Int)
  | tooLarge (v : Value) (maximum : Int)

namespace Violation

def plural (n : Nat) (noun : String) : String := if n = 1 then noun else noun ++ "s"

def message : Violation → String
  | .notOfType v wanted => v.compact ++ " is not of " ++ wanted
  | .tooShort v n => v.compact ++ " is shorter than " ++ Text.natural n ++ plural n " character"
  | .noMatch v pattern => v.compact ++ " does not match \"" ++ pattern ++ "\""
  | .notAmong v names => v.compact ++ " is not one of " ++ (Value.texts names).compact
  | .tooFew v n => v.compact ++ " has less than " ++ Text.natural n ++ plural n " item"
  | .missing name => (Value.text name).compact ++ " is a required property"
  | .tooSmall v n => v.compact ++ " is less than the minimum of " ++ String.ofList (Text.integer n)
  | .tooLarge v n =>
    v.compact ++ " is greater than the maximum of " ++ String.ofList (Text.integer n)

end Violation

def Number.below (n : Number) (bound : Int) : Bool :=
  match n with
  | .int k => k.val < bound
  | .real x => x.ltInt bound

def Number.above (n : Number) (bound : Int) : Bool :=
  match n with
  | .int k => bound < k.val
  | .real x => x.gtInt bound

def Number.isWhole (n : Number) : Bool :=
  match n with
  | .int _ => true
  | .real x => x.numerator % Number.twoPow 1074 = 0

def isWebAddress (cs : List Char) : Bool :=
  "http://".toList.isPrefixOf cs || "https://".toList.isPrefixOf cs

namespace Schema

def ofType (name : String) : String := "type \"" ++ name ++ "\""

mutual

def violations : Schema → Value → List Violation
  | .text minLength, v =>
    match v with
    | .text s => if s.length < minLength then [.tooShort v minLength] else []
    | _ => [.notOfType v (ofType "string")]
  | .webAddress, v =>
    match v with
    | .text s => if isWebAddress s.toList then [] else [.noMatch v "^https?://"]
    | _ => [.notOfType v (ofType "string")]
  | .choice names, v =>
    match v with
    | .text s => if names.contains s then [] else [.notAmong v names]
    | _ => [.notAmong v names]
  | .list item minItems, v =>
    match v with
    | .list vs =>
      vs.flatMap (violations item) ++ if vs.length < minItems then [.tooFew v minItems] else []
    | _ => [.notOfType v (ofType "array")]
  | .object properties required, v =>
    match v with
    | .object m =>
      propertyViolations properties m ++
        (required.filter fun name => (m.lookup name).isNone).map .missing
    | _ => [.notOfType v (ofType "object")]
  | .mapping member, v =>
    match v with
    | .object m => m.flatMap fun p => violations member p.2
    | _ => [.notOfType v (ofType "object")]
  | .integer minimum, v =>
    match v with
    | .number n =>
      (if n.below minimum then [.tooSmall v minimum] else []) ++
        if n.isWhole then [] else [.notOfType v (ofType "integer")]
    | _ => [.notOfType v (ofType "integer")]
  | .optionalNumber minimum maximum, v =>
    match v with
    | .null => []
    | .number n =>
      (if n.above maximum then [.tooLarge v maximum] else []) ++
        if n.below minimum then [.tooSmall v minimum] else []
    | _ => [.notOfType v "types \"null\", \"number\""]

def propertyViolations : List (String × Schema) → Members → List Violation
  | [], _ => []
  | (name, schema) :: properties, m =>
    (match m.lookup name with
      | some v => violations schema v
      | none => []) ++ propertyViolations properties m

end

end Schema

end Mockup.Json
