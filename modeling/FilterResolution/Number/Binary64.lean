/-!
Binary64 words: the IEEE 754 double format kept as its 64-bit word. The fields are decoded
with `Nat` arithmetic, and `Binary64.ofRatio` picks the word nearest to a non-negative ratio,
a tie going to the even significand and a ratio beyond the largest finite double to infinity.
Products and quotients are the exact results rounded the same way, which is what IEEE 754
prescribes for them. No runtime float operation is involved, so every rule here can be
evaluated and proved.
-/

namespace FilterResolution.Number

/-- A double-precision float, kept as its IEEE 754 word. -/
structure Binary64 where
  bits : UInt64
  deriving DecidableEq, Repr, Inhabited

namespace Binary64

/-- The stored fraction: the low 52 bits. -/
def fraction (x : Binary64) : Nat := x.bits.toNat % Nat.pow 2 52

/-- The biased exponent: the 11 bits above the fraction. -/
def biasedExponent (x : Binary64) : Nat := x.bits.toNat / Nat.pow 2 52 % Nat.pow 2 11

/-- The sign bit. -/
def negative (x : Binary64) : Bool := decide (Nat.pow 2 63 ≤ x.bits.toNat)

/-- Finite words have a biased exponent below 2047. -/
def isFinite (x : Binary64) : Bool := x.biasedExponent != 2047

/-- Not-a-number: the top exponent with a non-zero fraction. -/
def isNaN (x : Binary64) : Bool := x.biasedExponent == 2047 && x.fraction != 0

/-- Either zero: exponent and fraction both zero. -/
def isZero (x : Binary64) : Bool := x.biasedExponent == 0 && x.fraction == 0

/-- The integer significand `m` of a finite word, whose magnitude is `m * 2 ^ exponent`. -/
def significand (x : Binary64) : Nat :=
  if x.biasedExponent = 0 then x.fraction else Nat.pow 2 52 + x.fraction

/-- The power of two that scales `significand`. -/
def exponent (x : Binary64) : Int :=
  if x.biasedExponent = 0 then -1074 else (x.biasedExponent : Int) - 1075

/-- The word with the given sign, biased exponent and fraction. -/
def ofFields (negative : Bool) (biased fraction : Nat) : Binary64 :=
  ⟨UInt64.ofNat ((if negative then Nat.pow 2 63 else 0) + biased * Nat.pow 2 52 + fraction)⟩

/-- Zero with the given sign. -/
def zero (negative : Bool) : Binary64 := ofFields negative 0 0

/-- Infinity with the given sign. -/
def infinity (negative : Bool) : Binary64 := ofFields negative 2047 0

/-- The same word with the sign bit flipped. -/
def neg (x : Binary64) : Binary64 := ⟨x.bits ^^^ (0x8000000000000000 : UInt64)⟩

/-- Whether `num / den` is at least `2 ^ k`. -/
def ratioAtLeastPow2 (num den : Nat) (k : Int) : Bool :=
  if 0 ≤ k then decide (den * Nat.pow 2 k.toNat ≤ num)
  else decide (den ≤ num * Nat.pow 2 (-k).toNat)

/-- The integer nearest to `num / den`; a tie goes to the even one. -/
def roundHalfEven (num den : Nat) : Nat :=
  let q := num / den
  let r := num % den
  if den < 2 * r || (2 * r == den && q % 2 == 1) then q + 1 else q

/-- The word nearest to `num / den` (for `0 < den`) with the given sign: ties go to the even
significand, subnormal results keep the spacing `2 ^ -1074`, and a ratio that rounds beyond
the largest finite double becomes infinity. -/
def ofRatio (negative : Bool) (num den : Nat) : Binary64 :=
  if num = 0 then zero negative else
  let a : Int := num.log2
  let b : Int := den.log2
  -- `l` is the floor of the binary logarithm of the ratio
  let l := if ratioAtLeastPow2 num den (a - b) then a - b else a - b - 1
  let q := max (-1074) (l - 52)
  let m :=
    if 0 ≤ q then roundHalfEven num (den * Nat.pow 2 q.toNat)
    else roundHalfEven (num * Nat.pow 2 (-q).toNat) den
  -- rounding up may carry into a new binade
  let carried := m = Nat.pow 2 53
  let m := if carried then Nat.pow 2 52 else m
  let q := if carried then q + 1 else q
  if 971 < q then infinity negative
  else if m < Nat.pow 2 52 then ofFields negative 0 m
  else ofFields negative (q + 1075).toNat (m - Nat.pow 2 52)

/-- The magnitude of a finite word as a ratio `(num, den)`. -/
def magnitude (x : Binary64) : Nat × Nat :=
  let q := x.exponent
  (x.significand * Nat.pow 2 q.toNat, Nat.pow 2 (-q).toNat)

/-- The rounded product of two finite words. -/
def mul (x y : Binary64) : Binary64 :=
  let (n₁, d₁) := x.magnitude
  let (n₂, d₂) := y.magnitude
  ofRatio (x.negative != y.negative) (n₁ * n₂) (d₁ * d₂)

/-- The rounded quotient of two finite words, the divisor non-zero. -/
def div (x y : Binary64) : Binary64 :=
  let (n₁, d₁) := x.magnitude
  let (n₂, d₂) := y.magnitude
  ofRatio (x.negative != y.negative) (n₁ * d₂) (d₁ * n₂)

/-- The word nearest to a natural number. -/
def ofNat (n : Nat) : Binary64 := ofRatio false n 1

/-- Equality of the numbers two words stand for: a NaN equals nothing, and the two zeros are
equal. -/
def sameNumber (x y : Binary64) : Bool :=
  !x.isNaN && !y.isNaN && (x.bits == y.bits || (x.isZero && y.isZero))

example : (ofNat 1).bits = 0x3FF0000000000000 := by decide
example : (ofRatio false 1 10).bits = 0x3FB999999999999A := by decide
example : (ofRatio false 1 (Nat.pow 2 1075)).bits = 0 := by decide +kernel
example : (ofRatio false 3 (Nat.pow 2 1076)).bits = 1 := by decide +kernel

end Binary64

end FilterResolution.Number
