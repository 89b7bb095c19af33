/-!
# Binary floating point numbers, taken apart

A finite number of the binary64 format is a sign, a mantissa and a power of two. `Binary.read`
takes one apart; everything that has to be exact about such a number (its shortest decimal, its
value in nanoseconds) is computed from the parts with whole numbers.
-/

namespace RemoteFile

namespace Decimal

/-- What a binary64 pattern stands for. -/
inductive Binary where
  /-- Not a number. -/
  | nan
  /-- An infinity. -/
  | infinite (negative : Bool)
  /-- The number `mantissa * 2 ^ exponent`, with a sign of its own even for zero. -/
  | finite (negative : Bool) (mantissa : Nat) (exponent : Int)
deriving DecidableEq, Repr

namespace Binary

/-- The number of values of the fraction field, which has 52 bits. -/
abbrev fractionLimit : Nat := 4503599627370496

/-- The number of values of the exponent field, which has 11 bits. -/
abbrev exponentLimit : Nat := 2048

/-- The exponent of the last fraction bit of the smallest numbers. -/
abbrev leastExponent : Int := -1074

/-- Takes a bit pattern apart: the hidden bit is made explicit. -/
def ofBits (bits : Nat) : Binary :=
  let negative := bits / fractionLimit / exponentLimit % 2 == 1
  let field : Nat := bits / fractionLimit % exponentLimit
  let fraction : Nat := bits % fractionLimit
  if field == exponentLimit - 1 then
    if fraction == 0 then .infinite negative else .nan
  else if field == 0 then .finite negative fraction leastExponent
  else .finite negative (fractionLimit + fraction) (leastExponent + (field - 1 : Nat))

/-- Takes a number apart. -/
def read (x : Float) : Binary := ofBits x.toBits.toNat

end Binary

/-- The whole number nearest to `num / den`, an exact half going to the even neighbour. -/
def roundHalfEven (num den : Nat) : Nat :=
  let q := num / den
  let r := num % den
  if 2 * r < den then q
  else if den < 2 * r then q + 1
  else if q % 2 == 0 then q else q + 1

/-- `10 ^ k` as a pair numerator and denominator. -/
def tenPower (k : Int) : Nat × Nat :=
  if 0 ≤ k then (Nat.pow 10 k.toNat, 1) else (1, Nat.pow 10 (-k).toNat)

/-- `2 ^ k` as a pair numerator and denominator. -/
def twoPower (k : Int) : Nat × Nat :=
  if 0 ≤ k then (Nat.pow 2 k.toNat, 1) else (1, Nat.pow 2 (-k).toNat)

end Decimal

end RemoteFile
