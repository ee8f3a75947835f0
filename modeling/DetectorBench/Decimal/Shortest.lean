import DetectorBench.Decimal.Binary64
import DetectorBench.Text.Class

/-!
# The shortest decimal text of a binary64 number

Every binary64 number owns the interval of reals that round to it. Its text has
the fewest digits that fall into that interval, and of two candidates with
equally many digits the one nearer to the number. The candidates for a given
count of digits are the two neighbours of the number on that decimal grid: if
any point of the grid lies in the interval, so does one of these.

A number whose first digit stands at one of the places `-5` to `15` is written
positionally, with at least one digit after the point; any other as digits and
an exponent that always shows its sign.
-/

namespace DetectorBench.Decimal

/-- A decimal number `digits * 10 ^ exponent`. -/
structure Scaled where
  digits : Nat
  exponent : Int
  deriving DecidableEq, Repr

/-- A power of ten split over numerator and denominator. -/
def powerOfTen (e : Int) : Nat × Nat :=
  (Nat.pow 10 e.toNat, Nat.pow 10 (-e).toNat)

/-- The place of the first digit of `num / den`, for a positive ratio: the `e`
with `10 ^ e ≤ num / den < 10 ^ (e + 1)`. -/
def leadingPlace (num den : Nat) : Int :=
  let e : Int := ((Text.digits num).length : Int) - ((Text.digits den).length : Int)
  let (up, down) := powerOfTen e
  if den * up ≤ num * down then e else e - 1

/-- The interval that rounds to a step, as numerators over one denominator:
lower end, the number itself, upper end. The lower half gap is narrower where
the gap below is. -/
def interval (step : Nat) : (Nat × Nat × Nat) × Nat :=
  let m := Binary64.mantissa step
  let (up, down) := Binary64.powerOfTwo (Binary64.exponent step - 2)
  let below := if m = Binary64.binade && Binary64.binade < step then 1 else 2
  (((4 * m - below) * up, 4 * m * up, (4 * m + 2) * up), down)

/-- The best candidate on the grid `10 ^ place`, if one of the two neighbours of
the number lies in its interval. The ends belong to the interval exactly if the
mantissa is even. -/
def candidate (step : Nat) (place : Int) : Option Nat :=
  let ((low, mid, high), den) := interval step
  let (up, down) := powerOfTen place
  let unit := up * den
  let even := Binary64.mantissa step % 2 == 0
  let inside (c : Nat) : Bool :=
    let v := c * unit
    if even then low * down ≤ v && v ≤ high * down
    else low * down < v && v < high * down
  let c := mid * down / unit
  let r := mid * down % unit
  match inside c, inside (c + 1) with
  | true, true => some (if 2 * r < unit || (2 * r == unit && c % 2 == 0) then c
      else c + 1)
  | true, false => some c
  | false, true => some (c + 1)
  | false, false => none

/-- A decimal number without zeros at the end of its digits. -/
def stripZeros (digits : Nat) (exponent : Int) : Scaled :=
  if h : digits ≠ 0 ∧ digits % 10 = 0 then stripZeros (digits / 10) (exponent + 1)
  else ⟨digits, exponent⟩
termination_by digits
decreasing_by omega

/-- The shortest decimal number that rounds to a step: the first grid with a
candidate, from `count` digits on. Seventeen digits always suffice. -/
def shortestFrom (step : Nat) (first : Int) : (fuel count : Nat) → Scaled
  | 0, _ => ⟨0, 0⟩
  | fuel + 1, count =>
    let place := first - (count : Int) + 1
    match candidate step place with
    | some c => stripZeros c place
    | none => shortestFrom step first fuel (count + 1)

/-- The shortest decimal number that rounds to a positive step. -/
def shortest (step : Nat) : Scaled :=
  let (num, den) := Binary64.ratio step
  shortestFrom step (leadingPlace num den) 17 1

/-- The places of a first digit that are written positionally. -/
def isPositional (place : Int) : Bool :=
  -5 ≤ place && place ≤ 15

/-- The text of a decimal number whose first digit is not zero. -/
def render (d : Scaled) : List Char :=
  let ds := Text.digits d.digits
  let place := d.exponent + ds.length - 1
  if isPositional place then
    if 0 ≤ d.exponent then ds ++ List.replicate d.exponent.toNat '0' ++ ['.', '0']
    else if 0 ≤ place then ds.take (place.toNat + 1) ++ '.' ::
      ds.drop (place.toNat + 1)
    else ['0', '.'] ++ List.replicate (-place - 1).toNat '0' ++ ds
  else
    let mantissa :=
      match ds with
      | d :: e :: es => d :: '.' :: e :: es
      | ds => ds
    let sign := if 0 ≤ place then '+' else '-'
    mantissa ++ ['e', sign] ++ Text.digits place.natAbs

/-- The text of a binary64 number. -/
def text (x : Binary64) : List Char :=
  let magnitude := if x.step = 0 then ['0', '.', '0'] else render (shortest x.step)
  if x.negative then '-' :: magnitude else magnitude

end DetectorBench.Decimal
