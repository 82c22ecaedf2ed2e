import FilterResolution.Json.Error

/-!
JSON numbers as the reader classifies them: a non-negative integer that fits in 64 bits is
unsigned, a negative one that fits in 64 signed bits is signed, and every other number (a
fraction, an exponent, a larger integer, `-0`) is a double.
-/

namespace FilterResolution.Json

open FilterResolution.Number

/-- A JSON number. -/
inductive Number where
  | unsigned (n : UInt64)
  | signed (n : Int64)
  | float (x : Binary64)
  deriving DecidableEq, Repr

namespace Number

/-- JSON text of a number; doubles use the JSON layout, and a NaN or an infinity, which JSON
cannot hold, is written `null`. -/
def render : Number → String
  | .unsigned n => toString n.toNat
  | .signed n => toString n.toInt
  | .float x => if x.isFinite then Layout.json.render x else "null"

/-- How the number is named when it is not what a reader expects. -/
def unexpected : Number → Unexpected
  | .unsigned n => .unsigned n.toNat
  | .signed n => .signed n.toInt
  | .float x => .float x

end Number

end FilterResolution.Json
