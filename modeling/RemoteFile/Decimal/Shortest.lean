import RemoteFile.Decimal.Binary

/-!
# The shortest decimal of a binary number

Of the decimals that round to a given binary64 number, `shortest` finds the one with the fewest
significant digits, and among those the nearest; an exact tie goes to the even digit.

A decimal rounds to the number when it lies between the midpoints to the two neighbours, the
midpoints themselves included exactly when the mantissa is even. If any multiple of a power of ten
lies there, so does one of the two multiples around the number itself, so on each grid it is
enough to try those two, from the coarsest grid on.
-/

namespace RemoteFile

namespace Decimal

/-- The decimal `digits * 10 ^ exponent`. -/
structure Scaled where
  /-- The significant digits, as a whole number. -/
  digits : Nat
  /-- The power of ten that the last digit counts. -/
  exponent : Int
deriving DecidableEq, Repr, Inhabited

/-- The numbers that round to one binary number, in quarters of its last place. -/
structure Interval where
  /-- The number itself. -/
  value : Nat
  /-- The midpoint to the lower neighbour. -/
  low : Nat
  /-- The midpoint to the upper neighbour. -/
  high : Nat
  /-- The power of two that a quarter stands for. -/
  exponent : Int
  /-- The midpoints round to the number too. -/
  closed : Bool
deriving Repr

/-- The interval of a positive number `mantissa * 2 ^ exponent`. Below a power of two the
neighbours are twice as dense. -/
def Interval.of (mantissa : Nat) (exponent : Int) : Interval :=
  let dense := mantissa == Binary.fractionLimit && Binary.leastExponent < exponent
  { value := 4 * mantissa
    low := 4 * mantissa - (if dense then 1 else 2)
    high := 4 * mantissa + 2
    exponent := exponent - 2
    closed := mantissa % 2 == 0 }

/-- Does `digits * 10 ^ p` round to the number? -/
def Interval.holds (i : Interval) (p : Int) (digits : Nat) : Bool :=
  let (tenNum, tenDen) := tenPower p
  let (twoNum, twoDen) := twoPower i.exponent
  let point := digits * tenNum * twoDen
  let low := i.low * twoNum * tenDen
  let high := i.high * twoNum * tenDen
  if i.closed then low ≤ point && point ≤ high else low < point && point < high

/-- The multiple of `10 ^ p` that rounds to the number and is nearest to it, if there is one. -/
def Interval.nearestOn (i : Interval) (p : Int) : Option Nat :=
  let (tenNum, tenDen) := tenPower p
  let (twoNum, twoDen) := twoPower i.exponent
  let num := i.value * twoNum * tenDen
  let den := tenNum * twoDen
  let below := num / den
  let above := below + 1
  match i.holds p below && below != 0, i.holds p above with
  | true, true => some (roundHalfEven num den)
  | true, false => some below
  | false, true => some above
  | false, false => none

/-- Tries the grids `10 ^ p`, `10 ^ (p - 1)`, … in turn. -/
def Interval.search (i : Interval) : Nat → Int → Scaled
  | 0, p => ⟨(i.nearestOn p).getD 0, p⟩
  | fuel + 1, p =>
    match i.nearestOn p with
    | some digits => ⟨digits, p⟩
    | none => i.search fuel (p - 1)

/-- A power of ten that is above `mantissa * 2 ^ exponent`, and not far above. -/
def coarsest (mantissa : Nat) (exponent : Int) : Int :=
  (exponent + Nat.log2 mantissa + 1) * 1233 / 4096 + 1

/-- The shortest decimal of the positive number `mantissa * 2 ^ exponent`. Seventeen digits always
suffice, and the first grid is at most two places too coarse. -/
def shortest (mantissa : Nat) (exponent : Int) : Scaled :=
  (Interval.of mantissa exponent).search 20 (coarsest mantissa exponent)

end Decimal

end RemoteFile
