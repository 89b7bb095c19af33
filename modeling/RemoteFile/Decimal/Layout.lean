import RemoteFile.Decimal.Shortest

/-!
# Layouts of decimal numbers

How the shortest decimal of a number is laid out: where positional notation ends, how a whole
number shows that it may have a fraction, and how an exponent is signed. The three layouts in use
are values of one record.

* `Layout.plain` : positional throughout, whole numbers without a fraction (`2`, `0.0000001`).
* `Layout.precise` : whole numbers end in `.0`, and exponents stand from `1e16` on and below
  `0.0001`.
* `Layout.data` : the same with exponents from `1e+16` on and below `0.00001`, the plus sign
  written.
-/

namespace RemoteFile

namespace Decimal

/-- The decisions of a layout. -/
structure Layout where
  /-- What follows the digits of a whole number in positional notation. -/
  whole : String
  /-- The positions of the decimal point, counted from the first digit, that are written
  positionally; none means all. -/
  positional : Option (Int × Int)
  /-- A positive exponent has a plus sign. -/
  plus : Bool
deriving Repr

/-- Positional throughout. -/
def Layout.plain : Layout := ⟨"", none, false⟩

/-- Shows that a number is a fraction. -/
def Layout.precise : Layout := ⟨".0", some (-3, 16), false⟩

/-- For data files. -/
def Layout.data : Layout := ⟨".0", some (-4, 16), true⟩

/-- A run of zeros. -/
def zeros (n : Int) : String := String.ofList (List.replicate n.toNat '0')

/-- Digits written positionally, the point standing after `point` of them. -/
def Layout.positionally (l : Layout) (digits : String) (point : Int) : String :=
  let count : Int := digits.length
  if count ≤ point then digits ++ zeros (point - count) ++ l.whole
  else if 0 < point then
    String.ofList (digits.toList.take point.toNat) ++ "." ++
      String.ofList (digits.toList.drop point.toNat)
  else "0." ++ zeros (-point) ++ digits

/-- Digits written with an exponent, the point standing after the first. -/
def Layout.scientifically (l : Layout) (digits : String) (point : Int) : String :=
  let first := String.ofList (digits.toList.take 1)
  let rest := String.ofList (digits.toList.drop 1)
  let exponent := point - 1
  let sign := if l.plus && 0 ≤ exponent then "+" else ""
  first ++ (if rest.isEmpty then "" else "." ++ rest) ++ "e" ++ sign ++ toString exponent

/-- A positive decimal. -/
def Layout.scaled (l : Layout) (d : Scaled) : String :=
  let digits := toString d.digits
  let point := d.exponent + digits.length
  match l.positional with
  | none => l.positionally digits point
  | some (least, most) =>
    if least ≤ point && point ≤ most then l.positionally digits point
    else l.scientifically digits point

/-- A number, its sign included; none for a number that is not finite. -/
def Layout.finite? (l : Layout) (x : Float) : Option String :=
  match Binary.read x with
  | .finite negative mantissa exponent =>
    let size := if mantissa == 0 then "0" ++ l.whole else l.scaled (shortest mantissa exponent)
    some (if negative then "-" ++ size else size)
  | _ => none

/-- A number of any kind. -/
def Layout.text (l : Layout) (x : Float) : String :=
  match Binary.read x, l.finite? x with
  | .nan, _ => "NaN"
  | .infinite negative, _ => if negative then "-inf" else "inf"
  | _, size => size.getD ""

end Decimal

end RemoteFile
