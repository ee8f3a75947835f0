/-!
# Binary64 numbers, exactly

The finite binary64 numbers that are not negative form a ladder: zero, the
subnormal numbers, then the normal ones, each step one unit in the last place
above the one before. A number is held as its sign and its step, which is also
the pattern of its 63 low bits. Every operation here is exact arithmetic on
natural numbers followed by one rounding (`roundRatio`), so nothing depends on
the floating-point unit.
-/

namespace DetectorBench

/-- A binary64 number: its sign and its step on the ladder of magnitudes. -/
structure Binary64 where
  negative : Bool
  step : Nat
  deriving DecidableEq, Repr, Inhabited

namespace Binary64

/-- The number of steps of one binade. -/
def binade : Nat := 4503599627370496

/-- The first step that is no longer finite. -/
def limit : Nat := 2047 * binade

/-- The magnitude at a step is `mantissa * 2 ^ exponent`. -/
def mantissa (step : Nat) : Nat :=
  if step < binade then step else step % binade + binade

/-- The exponent that goes with `mantissa`. -/
def exponent (step : Nat) : Int :=
  if step < binade then -1074 else (step / binade : Nat) - 1075

/-- A power of two split over numerator and denominator. -/
def powerOfTwo (e : Int) : Nat × Nat :=
  (Nat.pow 2 e.toNat, Nat.pow 2 (-e).toNat)

/-- The magnitude at a step as a ratio. -/
def ratio (step : Nat) : Nat × Nat :=
  let (up, down) := powerOfTwo (exponent step)
  (mantissa step * up, down)

/-- The exponent `e` of the leading bit: `2 ^ e ≤ num / den < 2 ^ (e + 1)`, for
positive `num` and `den`. -/
def leadingBit (num den : Nat) : Int :=
  let e : Int := (num.log2 : Int) - (den.log2 : Int)
  let (up, down) := powerOfTwo e
  if den * up ≤ num * down then e else e - 1

/-- A quotient rounded to the nearest integer, a half to the even one. -/
def roundHalfEven (num den : Nat) : Nat :=
  let q := num / den
  let r := num % den
  if den < 2 * r || (2 * r == den && q % 2 == 1) then q + 1 else q

/-- The step nearest to `num / den`, a tie to the even step. Ratios too large
for the ladder give `limit` or more. -/
def roundRatio (num den : Nat) : Nat :=
  if num = 0 then 0
  else
    let e := max (leadingBit num den - 52) (-1074)
    let (up, down) := powerOfTwo e
    (e + 1074).toNat * binade + roundHalfEven (num * down) (den * up)

/-- The rounded product of two magnitudes. -/
def product (a b : Nat) : Nat :=
  let (an, ad) := ratio a
  let (bn, bd) := ratio b
  roundRatio (an * bn) (ad * bd)

/-- The rounded quotient of two magnitudes; the divisor is not zero. -/
def quotient (a b : Nat) : Nat :=
  let (an, ad) := ratio a
  let (bn, bd) := ratio b
  roundRatio (an * bd) (ad * bn)

/-- The magnitude nearest to a power of ten. -/
def tenTo (n : Nat) : Nat :=
  roundRatio (Nat.pow 10 n) 1

/-- The largest power of ten on the ladder. -/
def largestTen : Nat := 308

/-- A magnitude divided by a power of ten, in steps no longer than
`largestTen`. -/
def shrink (a n : Nat) : Nat :=
  if n ≤ largestTen then quotient a (tenTo n)
  else if a = 0 then 0
  else shrink (quotient a (tenTo largestTen)) (n - largestTen)
termination_by n
decreasing_by simp [largestTen] at *; omega

/-- A magnitude multiplied by a power of ten; `none` when the product is not
finite. -/
def grow (a n : Nat) : Option Nat :=
  if n ≤ largestTen then
    let grown := product a (tenTo n)
    if grown < limit then some grown else none
  else if a = 0 then some 0
  else none

/-- The magnitude of `significand * 10 ^ exponent`: the significand is rounded
first, and then the product or quotient with the rounded power of ten. -/
def ofDecimal (significand : Nat) (exponent : Int) : Option Nat :=
  let start := roundRatio significand 1
  if 0 ≤ exponent then grow start exponent.toNat
  else some (shrink start (-exponent).toNat)

end Binary64

end DetectorBench
