import FilterResolution.Number.Shortest

/-!
Text layouts of doubles. One writer places the shortest digits of a double; a `Layout` holds
the decisions that tell two formats apart: where positional notation ends, whether integers
keep a `.0`, whether a non-negative exponent carries a plus sign, and which of two equally
near shortest candidates is written.
-/

namespace FilterResolution.Number

/-- The decisions of a float format. The value is `0.d₁d₂… × 10 ^ p`; it is written without an
exponent when `low < p ≤ high` (`none` leaves a side open). -/
structure Layout where
  low : Option Int
  high : Option Int
  /-- Integral values written without an exponent end in `.0`. -/
  pointZero : Bool
  /-- Non-negative exponents carry a plus sign. -/
  plusExponent : Bool
  /-- The choice between two equally near shortest candidates. -/
  tie : Tie
  deriving DecidableEq, Repr

namespace Layout

/-- Value text: always positional, no `.0`, so `1e21` is written out in full and `-0.0` is `-0`;
of two equally near candidates the larger, so `5.9604644775390625e-7` is `0.0000005960464477539063`. -/
def display : Layout := ⟨none, none, false, false, .up⟩

/-- Numbers in JSON text and reader messages: positional for `-5 < p ≤ 16` with `.0` on
integers, else `d.ddde±x`; of two equally near candidates the even one. -/
def json : Layout := ⟨some (-5), some 16, true, true, .even⟩

/-- `n` zero digits. -/
def zeros (n : Nat) : List Char := List.replicate n '0'

/-- Places the digits `ds` of a decimal whose point stands at `p`. -/
def place (layout : Layout) (ds : List Char) (p : Int) : List Char :=
  let n := ds.length
  if layout.low.all (· < p) && layout.high.all (p ≤ ·) then
    if p ≤ 0 then ['0', '.'] ++ zeros (-p).toNat ++ ds
    else if p < n then ds.take p.toNat ++ '.' :: ds.drop p.toNat
    else ds ++ zeros (p.toNat - n) ++ (if layout.pointZero then ['.', '0'] else [])
  else
    let e := p - 1
    let mantissa := match ds with
      | d :: rest@(_ :: _) => d :: '.' :: rest
      | _ => ds
    let sign := if e < 0 then ['-'] else if layout.plusExponent then ['+'] else []
    mantissa ++ 'e' :: sign ++ Nat.toDigits 10 e.natAbs

/-- The text of a double in this layout. -/
def render (layout : Layout) (x : Binary64) : String :=
  if x.isNaN then "NaN" else
  let sign := if x.negative then "-" else ""
  if !x.isFinite then sign ++ "inf"
  else if x.isZero then sign ++ (if layout.pointZero then "0.0" else "0")
  else
    let d := x.shortest layout.tie
    let ds := Nat.toDigits 10 d.digits
    sign ++ String.ofList (layout.place ds (ds.length + d.exponent))

end Layout

end FilterResolution.Number
