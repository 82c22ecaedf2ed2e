import FilterResolution.Json.Number
import FilterResolution.Data.KeyMap

/-!
JSON documents and their compact text. An object is a list of members; documents read from
text keep one member per key in key order. Strings are written with the escapes JSON requires
(quote, backslash, control characters) and nothing else escaped.
-/

namespace FilterResolution.Json

/-- A JSON document. -/
inductive Doc where
  | null
  | bool (b : Bool)
  | number (n : Number)
  | string (s : String)
  | array (items : List Doc)
  | object (members : List (String × Doc))
  deriving Inhabited

/-- The hexadecimal digit of a value below 16, lowercase. -/
def hexDigit (n : Nat) : Char := (Nat.toDigits 16 (n % 16)).headD '0'

/-- The characters that stand for `c` inside a JSON string. -/
def escapeChar (c : Char) : List Char :=
  match c with
  | '"' => ['\\', '"']
  | '\\' => ['\\', '\\']
  | '\n' => ['\\', 'n']
  | '\r' => ['\\', 'r']
  | '\t' => ['\\', 't']
  | '\x08' => ['\\', 'b']
  | '\x0c' => ['\\', 'f']
  | _ =>
    if c.toNat < 0x20 then ['\\', 'u', '0', '0', hexDigit (c.toNat / 16), hexDigit c.toNat]
    else [c]

/-- A JSON string literal for `s`. -/
def renderString (s : String) : String :=
  String.ofList ('"' :: s.toList.flatMap escapeChar ++ ['"'])

namespace Doc

mutual
/-- Compact JSON text of a document. -/
def render : Doc → String
  | .null => "null"
  | .bool b => toString b
  | .number n => n.render
  | .string s => renderString s
  | .array items => "[" ++ renderItems items ++ "]"
  | .object members => "\x7b" ++ renderMembers members ++ "\x7d"

/-- Elements of an array, comma separated. -/
def renderItems : List Doc → String
  | [] => ""
  | [d] => render d
  | d :: rest => render d ++ "," ++ renderItems rest

/-- Members of an object, comma separated. -/
def renderMembers : List (String × Doc) → String
  | [] => ""
  | [(k, d)] => renderString k ++ ":" ++ render d
  | (k, d) :: rest => renderString k ++ ":" ++ render d ++ "," ++ renderMembers rest
end

/-- How a document is named when it is not what a reader expects. -/
def unexpected : Doc → Unexpected
  | .null => .null
  | .bool b => .bool b
  | .number n => n.unexpected
  | .string s => .string s
  | .array _ => .sequence
  | .object _ => .map

/-- The member of an object under `key`. -/
def get? (d : Doc) (key : String) : Option Doc :=
  match d with
  | .object members => KeyMap.get? key members
  | _ => none

/-- The text of a string. -/
def asString? : Doc → Option String
  | .string s => some s
  | _ => none

/-- The truth value of a boolean. -/
def asBool? : Doc → Option Bool
  | .bool b => some b
  | _ => none

/-- The elements of an array. -/
def asArray? : Doc → Option (List Doc)
  | .array items => some items
  | _ => none

/-- The members of an object. -/
def asObject? : Doc → Option (List (String × Doc))
  | .object members => some members
  | _ => none

/-- A non-negative integer: an unsigned number. -/
def asNat? : Doc → Option Nat
  | .number (.unsigned u) => some u.toNat
  | _ => none

/-- An integer: an unsigned or signed number. -/
def asInt? : Doc → Option Int
  | .number (.unsigned u) => some u.toNat
  | .number (.signed i) => some i.toInt
  | _ => none

/-- Whether the document is `null`. -/
def isNull : Doc → Bool
  | .null => true
  | _ => false

end Doc

end FilterResolution.Json
