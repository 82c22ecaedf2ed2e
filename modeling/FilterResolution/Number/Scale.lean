import FilterResolution.Number.Binary64

/-!
Reading a decimal into a double in steps: the significand is first rounded to a double, then
multiplied by the double nearest `10 ^ e`, or divided by the double nearest `10 ^ -e`, each
step rounded. Exponents below `-308` first divide by `10 ^ 308` and move up by 308, stopping at
zero; a product that overflows, or a larger exponent with a non-zero significand, is out of
range. This is the rule the JSON reader of the program follows, which is not always the
correctly rounded result for long significands.
-/

namespace FilterResolution.Number.Binary64

/-- The double nearest `10 ^ k`. -/
def powTen (k : Nat) : Binary64 := ofRatio false (Nat.pow 10 k) 1

/-- Scales a non-negative double by `10 ^ e` in steps of at most `10 ^ 308`; `none` when the
result is out of range. -/
def scaleTenSteps : Nat → Binary64 → Int → Option Binary64
  | 0, x, _ => some x
  | fuel + 1, x, e =>
    if e.natAbs ≤ 308 then
      if 0 ≤ e then
        let y := x.mul (powTen e.toNat)
        if y.isFinite then some y else none
      else some (x.div (powTen e.natAbs))
    else if x.isZero then some x
    else if 0 ≤ e then none
    else scaleTenSteps fuel (x.div (powTen 308)) (e + 308)

/-- The double read for `significand * 10 ^ exponent` with the given sign, or `none` when it
is out of range. The magnitude is built first and the sign applied last, so `-0` reads as
negative zero. -/
def ofDecimal (negative : Bool) (significand : Nat) (exponent : Int) : Option Binary64 :=
  (scaleTenSteps (exponent.natAbs / 308 + 2) (ofNat significand) exponent).map
    fun x => if negative then x.neg else x

end FilterResolution.Number.Binary64
