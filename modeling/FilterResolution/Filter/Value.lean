import FilterResolution.Json.Doc

/-!
Values compared by predicates: null, booleans, 64-bit integers (signed, or unsigned above the
signed range), doubles, text, lists and maps with sorted keys. Read from JSON, a number that
fits the signed range is `int`, a larger unsigned one `uint`, and any other a `float`.

The text of a value writes doubles positionally with the fewest digits that read back, text
between single quotes with nothing escaped, lists as `[a, b]` and maps as `{k: v}`.
-/

namespace FilterResolution.Filter

open FilterResolution.Number FilterResolution.Json

/-- A value a predicate compares a field with. -/
inductive Value where
  | null
  | bool (b : Bool)
  | int (i : Int64)
  | uint (u : UInt64)
  | float (x : Binary64)
  | string (s : String)
  | list (items : List Value)
  | map (entries : List (String × Value))
  deriving Inhabited

namespace Value

/-- The largest signed 64-bit integer. -/
def maxSigned : Nat := Nat.pow 2 63 - 1

/-- An unsigned 64-bit integer: `int` when it fits the signed range, else `uint`. -/
def ofUnsigned (u : UInt64) : Value :=
  if u.toNat ≤ maxSigned then .int (Int64.ofNat u.toNat) else .uint u

/-- A list of values. -/
def ofList (items : List Value) : Value := .list items

mutual
/-- The text of a value. -/
def render : Value → String
  | .null => "null"
  | .bool b => toString b
  | .int i => toString i.toInt
  | .uint u => toString u.toNat
  | .float x => Layout.display.render x
  | .string s => "'" ++ s ++ "'"
  | .list items => "[" ++ renderItems items ++ "]"
  | .map entries => "\x7b" ++ renderEntries entries ++ "\x7d"

/-- Values of a list, separated by `", "`. -/
def renderItems : List Value → String
  | [] => ""
  | [v] => render v
  | v :: rest => render v ++ ", " ++ renderItems rest

/-- Entries of a map as `k: v`, separated by `", "`. -/
def renderEntries : List (String × Value) → String
  | [] => ""
  | [(k, v)] => k ++ ": " ++ render v
  | (k, v) :: rest => k ++ ": " ++ render v ++ ", " ++ renderEntries rest
end

mutual
/-- The JSON form of a value. -/
def toDoc : Value → Doc
  | .null => .null
  | .bool b => .bool b
  | .int i => .number (.signed i)
  | .uint u => .number (.unsigned u)
  | .float x => .number (.float x)
  | .string s => .string s
  | .list items => .array (itemsToDoc items)
  | .map entries => .object (entriesToDoc entries)

/-- The JSON form of list elements. -/
def itemsToDoc : List Value → List Doc
  | [] => []
  | v :: rest => toDoc v :: itemsToDoc rest

/-- The JSON form of map entries. -/
def entriesToDoc : List (String × Value) → List (String × Doc)
  | [] => []
  | (k, v) :: rest => (k, toDoc v) :: entriesToDoc rest
end

mutual
/-- The value a JSON document reads as; every document reads as one. -/
def ofDoc : Doc → Value
  | .null => .null
  | .bool b => .bool b
  | .number (.unsigned u) => ofUnsigned u
  | .number (.signed i) => .int i
  | .number (.float x) => .float x
  | .string s => .string s
  | .array items => .list (itemsOfDoc items)
  | .object members => .map (entriesOfDoc members)

/-- List elements read from JSON. -/
def itemsOfDoc : List Doc → List Value
  | [] => []
  | d :: rest => ofDoc d :: itemsOfDoc rest

/-- Map entries read from JSON. -/
def entriesOfDoc : List (String × Doc) → List (String × Value)
  | [] => []
  | (k, d) :: rest => (k, ofDoc d) :: entriesOfDoc rest
end

mutual
/-- Equality of values, doubles compared as numbers (a NaN equals nothing, `0.0` equals
`-0.0`). -/
def same : Value → Value → Bool
  | .null, .null => true
  | .bool a, .bool b => a == b
  | .int a, .int b => a == b
  | .uint a, .uint b => a == b
  | .float a, .float b => a.sameNumber b
  | .string a, .string b => a == b
  | .list a, .list b => sameItems a b
  | .map a, .map b => sameEntries a b
  | _, _ => false

/-- Element-wise equality of lists. -/
def sameItems : List Value → List Value → Bool
  | [], [] => true
  | a :: as, b :: bs => same a b && sameItems as bs
  | _, _ => false

/-- Entry-wise equality of maps. -/
def sameEntries : List (String × Value) → List (String × Value) → Bool
  | [], [] => true
  | (k, a) :: as, (l, b) :: bs => k == l && same a b && sameEntries as bs
  | _, _ => false
end

/-- The name of the variant. -/
def variantName : Value → String
  | .null => "Null"
  | .bool _ => "Bool"
  | .int _ => "Int"
  | .uint _ => "UInt"
  | .float _ => "Float"
  | .string _ => "String"
  | .list _ => "List"
  | .map _ => "Map"

/-- Whether the value is null. -/
def isNull : Value → Bool
  | .null => true
  | _ => false

/-- The text of a string value. -/
def asStr? : Value → Option String
  | .string s => some s
  | _ => none

/-- The truth value of a boolean. -/
def asBool? : Value → Option Bool
  | .bool b => some b
  | _ => none

/-- The integer of an `int`. -/
def asInt? : Value → Option Int
  | .int i => some i.toInt
  | _ => none

/-- A non-negative integer, from `int` or `uint`. -/
def asUnsigned? : Value → Option Nat
  | .int i => if 0 ≤ i.toInt then some i.toInt.toNat else none
  | .uint u => some u.toNat
  | _ => none

end Value

end FilterResolution.Filter
