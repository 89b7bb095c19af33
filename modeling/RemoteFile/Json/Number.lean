import RemoteFile.Json.Fault
import RemoteFile.Text.Numeral
import RemoteFile.Words

/-!
# JSON numbers

Numbers are read by their notation: a numeral without fraction and exponent that fits into 64 bits
is a whole number, every other one is the floating point number nearest to it. A number that is
too large for that is malformed.
-/

namespace RemoteFile

namespace Json

open Text

/-- A number as it is written. -/
inductive Number where
  /-- A whole number below `2 ^ 64`. -/
  | whole (n : Nat)
  /-- The negative of a whole number from 1 to `2 ^ 63`. -/
  | negative (n : Nat)
  /-- Any other number. -/
  | real (x : Float)
deriving Repr

/-- Longer decimal exponents than this only tell zero or too large. -/
abbrev exponentBound : Int := 400

/-- The floating point number nearest to `mantissa * 10 ^ exponent`; an infinity if it is too
large. -/
def nearest (mantissa : Nat) (exponent : Int) : Float :=
  let top : Int := exponent + ((toString mantissa).length : Nat)
  if mantissa == 0 then 0.0
  else if exponentBound < top then 1.0 / 0.0
  else if top < -exponentBound then 0.0
  else Float.ofScientific mantissa (exponent < 0) exponent.natAbs

/-- A floating point number with its sign; malformed if it is too large. -/
def signed (negative : Bool) (mantissa : Nat) (exponent : Int) : Except Fault Number :=
  let x := nearest mantissa exponent
  if x.isInf then .error .malformed else .ok (.real (if negative then -x else x))

/-- The digits at the start, and the rest. -/
def digits (s : List Char) : List Char × List Char :=
  (s.takeWhile Char.isDigit, s.dropWhile Char.isDigit)

/-- What is wrong with a number that goes on with `s` where it needs a digit. -/
def digitFault (s : List Char) : Fault := if s.isEmpty then .truncated else .malformed

/-- Reads the exponent after its letter. -/
def exponent (s : List Char) : Read Int :=
  let (negative, s) : Bool × List Char :=
    match s with
    | '+' :: r => (false, r)
    | '-' :: r => (true, r)
    | r => (false, r)
  let (ds, rest) := digits s
  if ds.isEmpty then .error (digitFault s)
  else .ok (if negative then -(digitsValue ds : Int) else digitsValue ds, rest)

/-- Reads what may follow the mantissa `mantissa * 10 ^ power`: an exponent. -/
def scaled (negative : Bool) (mantissa : Nat) (power : Int) (s : List Char) :
    Except Fault (Number × List Char) := do
  match s with
  | 'e' :: r | 'E' :: r =>
    let (e, rest) ← exponent r
    let x ← signed negative mantissa (power + e)
    .ok (x, rest)
  | _ =>
    let x ← signed negative mantissa power
    .ok (x, s)

/-- A numeral without fraction and exponent. -/
def integral (negative : Bool) (n : Nat) : Except Fault Number :=
  if negative then
    if 0 < n && n ≤ signedLimit then .ok (.negative n) else signed true n 0
  else if n < wordLimit then .ok (.whole n) else signed false n 0

/-- Reads what may follow the whole part `n`: a fraction and an exponent. -/
def afterWhole (negative : Bool) (n : Nat) (s : List Char) :
    Except Fault (Number × List Char) := do
  match s with
  | '.' :: r =>
    let (ds, rest) := digits r
    if ds.isEmpty then .error (digitFault r)
    else scaled negative (n * Nat.pow 10 ds.length + digitsValue ds) (-(ds.length : Int)) rest
  | 'e' :: _ | 'E' :: _ => scaled negative n 0 s
  | _ =>
    let x ← integral negative n
    .ok (x, s)

/-- Reads a number after its sign. A zero stands alone in front of the point. -/
def number (negative : Bool) (s : List Char) : Read Number :=
  let (ds, rest) := digits s
  match ds with
  | [] => .error (digitFault s)
  | ['0'] => afterWhole negative 0 rest
  | '0' :: _ => .error .malformed
  | _ => afterWhole negative (digitsValue ds) rest

end Json

end RemoteFile
