/-!
# Decimal numerals and binary floating point

A binary64 number is written with the fewest significant digits that read back as the same
number, and of those with the digits nearest to it, the greater ones if two are as near.  Both
directions are exact integer arithmetic: a numeral is rounded to the nearest `significand * 2 ^
exponent`, a half going to the even significand, and the digits are found on ever finer decimal
grids, by testing the two neighbours of the number on each grid against the interval of reals
that round to it.

* `Binary64.ofDecimal` — the number nearest to `digits * 10 ^ exponent`;
* `Binary64.shortest` — the digits and the exponent of ten that are written;
* `Binary64.text` — positional notation, with at least one digit after the point.
-/

namespace EngineFuzz

/-- A binary64 number. -/
inductive Binary64 where
  /-- `significand * 2 ^ exponent`, negated if `negative`. -/
  | finite (negative : Bool) (significand : Nat) (exponent : Int)
  | infinite (negative : Bool)
  | nan
deriving DecidableEq, Repr

namespace Binary64

/-- The least exponent, that of the subnormal numbers. -/
def minExponent : Int := -1074

/-- The greatest exponent. -/
def maxExponent : Int := 971

/-- `numerator / denominator` to the nearest whole number, a half to the even one. -/
def roundToEven (numerator denominator : Nat) : Nat :=
  let quotient := numerator / denominator
  let doubled := 2 * (numerator % denominator)
  if doubled < denominator then quotient
  else if denominator < doubled then quotient + 1
  else quotient + quotient % 2

/-- A power, or one if the exponent is not positive. -/
def upward (base : Nat) (exponent : Int) : Nat :=
  if 0 < exponent then Nat.pow base exponent.natAbs else 1

/-- The power with the opposite exponent. -/
def downward (base : Nat) (exponent : Int) : Nat := upward base (-exponent)

/-- The least significand that has all its bits. -/
def leastFull : Nat := 1 <<< 52

/-- `numerator / denominator / 2 ^ exponent`, rounded. -/
def significandAt (numerator denominator : Nat) (exponent : Int) : Nat :=
  roundToEven (numerator * downward 2 exponent) (denominator * upward 2 exponent)

/-- The number nearest to a positive quotient. -/
def ofQuotient (negative : Bool) (numerator denominator : Nat) : Binary64 :=
  let guess : Int := (numerator.log2 : Int) - (denominator.log2 : Int) - 53
  let enough (exponent : Int) : Bool :=
    numerator * downward 2 exponent < denominator * (2 * leastFull) * upward 2 exponent
  let exponent := max minExponent (if enough guess then guess else guess + 1)
  let significand := significandAt numerator denominator exponent
  let (significand, exponent) :=
    if significand = 2 * leastFull then (leastFull, exponent + 1) else (significand, exponent)
  if maxExponent < exponent then .infinite negative else .finite negative significand exponent

/-- The number nearest to `digits * 10 ^ exponent`.  A numeral that is out of all range is
recognised by its length, before its power of ten is worked out. -/
def ofDecimal (negative : Bool) (digits : Nat) (exponent : Int) : Binary64 :=
  if digits = 0 then .finite negative 0 minExponent
  else
    let magnitude : Int := (Nat.toDigits 10 digits).length + exponent
    if 400 < magnitude then .infinite negative
    else if magnitude < -400 then .finite negative 0 minExponent
    else ofQuotient negative (digits * upward 10 exponent) (downward 10 exponent)

/-- Whether `digits * 10 ^ ten` lies among the reals that round to `significand * 2 ^ exponent`;
the ends of that interval belong to it if the significand is even.  Below a power of two the
next number is only half as far away. -/
def readsBack (significand : Nat) (exponent : Int) (digits : Nat) (ten : Int) : Bool :=
  let narrow := significand = leastFull && minExponent < exponent
  let low := 4 * significand - (if narrow then 1 else 2)
  let high := 4 * significand + 2
  let scale (n : Nat) : Nat := n * upward 2 (exponent - 2) * downward 10 ten
  let value := digits * upward 10 ten * downward 2 (exponent - 2)
  if significand % 2 = 0 then scale low ≤ value && value ≤ scale high
  else scale low < value && value < scale high

/-- The distance from `significand * 2 ^ exponent` to `digits * 10 ^ ten`, in a unit that
depends on the two exponents alone. -/
def distance (significand : Nat) (exponent : Int) (digits : Nat) (ten : Int) : Nat :=
  let exact := significand * upward 2 exponent * downward 10 ten
  let value := digits * upward 10 ten * downward 2 exponent
  (exact - value) + (value - exact)

/-- `significand * 2 ^ exponent / 10 ^ ten`, rounded down. -/
def floorAt (significand : Nat) (exponent ten : Int) : Nat :=
  (significand * upward 2 exponent * downward 10 ten) / (downward 2 exponent * upward 10 ten)

/-- The digits on the first of the grids `ten`, `ten - 1`, … that has a point which reads back, and
that grid. -/
def searchGrids (significand : Nat) (exponent : Int) : (steps : Nat) → (ten : Int) → Nat × Int
  | 0, ten => (floorAt significand exponent ten, ten)
  | steps + 1, ten =>
    let below := floorAt significand exponent ten
    let above := below + 1
    let belowReads := 0 < below && readsBack significand exponent below ten
    let aboveReads := readsBack significand exponent above ten
    if belowReads && (!aboveReads ||
        distance significand exponent below ten < distance significand exponent above ten) then
      (below, ten)
    else if aboveReads then (above, ten)
    else searchGrids significand exponent steps (ten - 1)

/-- The fewest digits that read back, and the power of ten that they count. -/
def shortest (significand : Nat) (exponent : Int) : Nat × Int :=
  searchGrids significand exponent 800 (if 0 < exponent then 310 else 20)

/-- Positional notation with at least one digit after the point. -/
def text : Binary64 → String
  | .nan => "NaN"
  | .infinite negative => if negative then "-inf" else "inf"
  | .finite negative significand exponent =>
    let sign := if negative then "-" else ""
    if significand = 0 then sign ++ "0.0"
    else
      let (digits, ten) := shortest significand exponent
      let written := Nat.toDigits 10 digits
      if 0 ≤ ten then sign ++ String.ofList (written ++ List.replicate ten.natAbs '0') ++ ".0"
      else
        let places := ten.natAbs
        let padded := List.replicate (places + 1 - written.length) '0' ++ written
        sign ++ String.ofList (padded.take (padded.length - places)) ++ "." ++
          String.ofList (padded.drop (padded.length - places))

end Binary64

end EngineFuzz
