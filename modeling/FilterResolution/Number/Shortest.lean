import FilterResolution.Number.Binary64

/-!
Shortest decimal digits of a double. The reals that round to a finite word form an interval
around it (ends included when the significand is even, the lower half-gap halved at a power of
two). For 1, 2, … 17 significant digits the two neighbours of the value on that decimal grid
are tested with exact `Nat` arithmetic; the first grid with a neighbour inside wins, of two
the nearer. When both are equally near, the format decides (`Tie`). Seventeen digits always
suffice.
-/

namespace FilterResolution.Number

/-- The decimal `digits * 10 ^ exponent`. -/
structure Decimal where
  digits : Nat
  exponent : Int
  deriving DecidableEq, Repr, Inhabited

/-- Which of two equally near shortest candidates a format chooses. -/
inductive Tie where
  /-- The one whose last digit is even. -/
  | even
  /-- The larger one. -/
  | up
  deriving DecidableEq, Repr

namespace Decimal

/-- Drops trailing zero digits into the exponent. -/
def trim : Nat → Decimal → Decimal
  | 0, d => d
  | fuel + 1, d =>
    if d.digits ≠ 0 ∧ d.digits % 10 = 0 then trim fuel ⟨d.digits / 10, d.exponent + 1⟩ else d

end Decimal

namespace Binary64

/-- Compares `a * 10 ^ i` with `b * 2 ^ j`. -/
def compareScaled (a : Nat) (i : Int) (b : Nat) (j : Int) : Ordering :=
  compare (a * Nat.pow 10 i.toNat * Nat.pow 2 (-j).toNat)
    (b * Nat.pow 2 j.toNat * Nat.pow 10 (-i).toNat)

/-- `⌊log₁₀ (m * 2 ^ q)⌋` for `0 < m`: an estimate from the binary logarithm, corrected by
exact comparisons with powers of ten. -/
def decimalExponent (m : Nat) (q : Int) : Int :=
  settle 4 ((((m.log2 : Nat) : Int) + q) * 78913 / 262144)
where
  settle : Nat → Int → Int
    | 0, e => e
    | fuel + 1, e =>
      if compareScaled 1 (e + 1) m q != .gt then settle fuel (e + 1)
      else if compareScaled 1 e m q == .gt then settle fuel (e - 1)
      else e

/-- The shortest decimal of the magnitude of a finite non-zero word; `tie` picks between two
equally near candidates. -/
def shortest (tie : Tie) (x : Binary64) : Decimal :=
  let m := x.significand
  let q := x.exponent
  -- the rounding interval in units of `2 ^ (q - 2)`
  let low := if x.fraction = 0 ∧ 1 < x.biasedExponent then 4 * m - 1 else 4 * m - 2
  let high := 4 * m + 2
  let closed := m % 2 == 0
  let inside (d : Nat) (k : Int) : Bool :=
    let lo := compareScaled d k low (q - 2)
    let hi := compareScaled d k high (q - 2)
    (lo == .gt || (closed && lo == .eq)) && (hi == .lt || (closed && hi == .eq))
  let top := decimalExponent m q
  let floorAt (k : Int) : Nat :=
    m * Nat.pow 2 q.toNat * Nat.pow 10 (-k).toNat / (Nat.pow 2 (-q).toNat * Nat.pow 10 k.toNat)
  let pick (n : Nat) : Option Decimal :=
    let k := top - n + 1
    let t := floorAt k
    match inside t k, inside (t + 1) k with
    | true, true =>
      match compareScaled (2 * t + 1) k (2 * m) q with
      | .gt => some ⟨t, k⟩
      | .lt => some ⟨t + 1, k⟩
      | .eq => some ⟨if tie == .even && t % 2 == 0 then t else t + 1, k⟩
    | true, false => some ⟨t, k⟩
    | false, true => some ⟨t + 1, k⟩
    | false, false => none
  let found := ((List.range 17).findSome? fun i => pick (i + 1)).getD ⟨floorAt (top - 16), top - 16⟩
  found.trim 24

end Binary64

end FilterResolution.Number
