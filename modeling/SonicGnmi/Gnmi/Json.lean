import SonicGnmi.Foundation.GoMap

/-!
# JSON values as Go decodes and prints them

The server decodes a JSON body into maps of `interface{}` values and stores
what `fmt.Sprintf("%v", ...)` prints for them.  Numbers are decoded to 64-bit
floats, which `%v` prints in the shortest form with an exponent from a million
on.
-/

namespace SonicGnmi.Gnmi

open Foundation

/-- A decoded number: an integer that a float holds exactly, or the text that
`%v` prints for any other number. -/
inductive JsonNumber where
  | integer (value : Int)
  | other (text : String)
  deriving DecidableEq

/-- A decoded JSON value.  An object may repeat a key. -/
inductive Json where
  | null
  | bool (value : Bool)
  | number (value : JsonNumber)
  | string (value : String)
  | array (items : List Json)
  | object (members : List (String × Json))

/-- The bytes of a JSON body, as the decoder sees them. -/
inductive JsonText where
  | empty
  | malformed (error : String)
  | value (json : Json)

/-- The digits of a shortest float: without the zeros at the end. -/
def significantDigits (digits : List Char) : List Char :=
  (digits.reverse.dropWhile (· = '0')).reverse

/-- `%v` of a non-negative integer-valued float: digits up to six of them,
otherwise an exponent of at least two digits. -/
def sprintNat (n : Nat) : String :=
  let digits := (toString n).toList
  let exponent := digits.length - 1
  if exponent < 6 then
    String.ofList digits
  else
    let mantissa :=
      match significantDigits digits with
      | [] => []
      | [d] => [d]
      | d :: rest => d :: '.' :: rest
    let power := toString exponent
    String.ofList mantissa ++ "e+" ++ (if power.length < 2 then "0" ++ power else power)

/-- `%v` of a number. -/
def JsonNumber.sprint : JsonNumber → String
  | .integer n => (if n < 0 then "-" else "") ++ sprintNat n.natAbs
  | .other text => text

/-- The entries of a decoded object: the last of several equal keys counts. -/
def decodeMembers {Value : Type} (members : List (String × Value)) : GoMap String Value :=
  members.foldl (fun m entry => m.insert entry.1 entry.2) ∅

/-- `%v` of a map: the entries in the order of their keys. -/
def sprintMap (members : List (String × String)) : String :=
  let m := decodeMembers members
  "map[" ++ String.intercalate " "
    (m.sortedKeys.map fun k => k ++ ":" ++ (m.lookup k).getD "") ++ "]"

mutual

/-- `fmt.Sprintf("%v", value)`. -/
def Json.sprint : Json → String
  | .null => "<nil>"
  | .bool b => if b then "true" else "false"
  | .number n => n.sprint
  | .string s => s
  | .array items => "[" ++ String.intercalate " " (sprintItems items) ++ "]"
  | .object members => sprintMap (sprintMembers members)

/-- The texts of the items of an array. -/
def sprintItems : List Json → List String
  | [] => []
  | item :: rest => item.sprint :: sprintItems rest

/-- The texts of the members of an object. -/
def sprintMembers : List (String × Json) → List (String × String)
  | [] => []
  | (key, value) :: rest => (key, value.sprint) :: sprintMembers rest

end

/-- The kind of a value in a type error of the decoder. -/
def Json.kind : Json → String
  | .null => "null"
  | .bool _ => "bool"
  | .number _ => "number"
  | .string _ => "string"
  | .array _ => "array"
  | .object _ => "object"

/-- `json.Unmarshal` into a `map[string]interface{}`; `null` gives no
entries. -/
def Json.toMap : Json → Except String (GoMap String Json)
  | .object members => .ok (decodeMembers members)
  | .null => .ok ∅
  | other => .error ("json: cannot unmarshal " ++ other.kind ++
      " into Go value of type map[string]interface {}")

/-- The members of an object that are themselves decoded into maps. -/
def toMapMembers : List (String × Json) → Except String (List (String × GoMap String Json))
  | [] => .ok []
  | (key, value) :: rest =>
    match value.toMap with
    | .error e => .error e
    | .ok m =>
      match toMapMembers rest with
      | .error e => .error e
      | .ok entries => .ok ((key, m) :: entries)

/-- `json.Unmarshal` into a `map[string]map[string]interface{}`. -/
def Json.toMapOfMaps : Json → Except String (GoMap String (GoMap String Json))
  | .object members =>
    match toMapMembers members with
    | .error e => .error e
    | .ok entries => .ok (decodeMembers entries)
  | .null => .ok ∅
  | other => .error ("json: cannot unmarshal " ++ other.kind ++
      " into Go value of type map[string]map[string]interface {}")

/-- Decode a body with one of the two decoders. -/
def JsonText.unmarshal {Value : Type} (decode : Json → Except String Value) :
    JsonText → Except String Value
  | .empty => .error "unexpected end of JSON input"
  | .malformed e => .error e
  | .value json => decode json

example : (Json.number (.integer 1500000)).sprint = "1.5e+06" := by decide +kernel

end SonicGnmi.Gnmi
