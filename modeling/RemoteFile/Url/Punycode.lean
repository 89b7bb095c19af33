/-!
# Punycode

Labels of a domain name beyond ASCII are written with ASCII letters and digits: first the ASCII
characters as they are, then for every other one, in order of code points, the distance from the
one before in a number of variable length.

Main statement:

* `threshold_pos` : a digit that ends a number is always possible.
-/

namespace RemoteFile

namespace Url

namespace Punycode

/-- The digit of a value below 36. -/
def digitChar (d : Nat) : Char :=
  if d < 26 then Char.ofNat ('a'.toNat + d) else Char.ofNat ('0'.toNat + (d - 26))

/-- The value of a digit of either case. -/
def digitValue? (c : Char) : Option Nat :=
  if 'a' ≤ c && c ≤ 'z' then some (c.toNat - 'a'.toNat)
  else if 'A' ≤ c && c ≤ 'Z' then some (c.toNat - 'A'.toNat)
  else if '0' ≤ c && c ≤ '9' then some (c.toNat - '0'.toNat + 26)
  else none

/-- The least digit that does not end a number at place `k`. -/
def threshold (k bias : Nat) : Nat := min (max (k - bias) 1) 26

theorem threshold_pos (k bias : Nat) : 1 ≤ threshold k bias := by
  simp only [threshold]
  omega

/-- Shrinks a distance to one that few digits can hold. -/
def shrink (delta k : Nat) : Nat :=
  if 455 < delta then shrink (delta / 35) (k + 36) else k + 36 * delta / (delta + 38)
termination_by delta
decreasing_by exact Nat.div_lt_self (by omega) (by omega)

/-- The bias for the next distance, after one distance among `count` characters. -/
def adapt (delta count : Nat) (first : Bool) : Nat :=
  let delta := if first then delta / 700 else delta / 2
  shrink (delta + delta / count) 0

/-- A distance in digits of variable length, from place `k` on. -/
def writeDistance (bias k q : Nat) : List Char :=
  let t := threshold k bias
  if q < t then [digitChar q]
  else digitChar (t + (q - t) % (36 - t)) :: writeDistance bias (k + 36) ((q - t) / (36 - t))
termination_by q
decreasing_by
  have hpos := threshold_pos k bias
  exact Nat.lt_of_le_of_lt (Nat.div_le_self _ _) (by omega)

/-- What is written so far. -/
structure Progress where
  /-- The digits. -/
  written : List Char
  /-- The distance since the last character that was written. -/
  delta : Nat
  /-- The current bias. -/
  bias : Nat
  /-- How many characters are written. -/
  count : Nat

/-- Passes one character while those with code point `m` are written; `basic` of the characters
are ASCII. -/
def pass (basic m : Nat) (p : Progress) (c : Char) : Progress :=
  if c.toNat < m then { p with delta := p.delta + 1 }
  else if c.toNat == m then
    { written := p.written ++ writeDistance p.bias 36 p.delta
      delta := 0
      bias := adapt p.delta (p.count + 1) (p.count == basic)
      count := p.count + 1 }
  else p

/-- Writes the characters of the given code points, `n` being the first one not yet passed. -/
def writeAll (label : List Char) (basic : Nat) : List Nat → Nat → Progress → Progress
  | [], _, p => p
  | m :: ms, n, p =>
    let p := label.foldl (pass basic m) { p with delta := p.delta + (m - n) * (p.count + 1) }
    writeAll label basic ms (m + 1) { p with delta := p.delta + 1 }

/-- A label in ASCII, without its mark. -/
def encode (label : List Char) : List Char :=
  let basic := label.filter (·.toNat < 0x80)
  let points := ((label.filter (0x80 ≤ ·.toNat)).map Char.toNat).eraseDups.mergeSort
  let p := writeAll label basic.length points 0x80 ⟨[], 0, 72, basic.length⟩
  basic ++ (if basic.isEmpty then [] else ['-']) ++ p.written

/-- Reads a distance: the sum so far is `i`, the next digit counts `w`. -/
def readDistance (bias : Nat) : Nat → Nat → Nat → List Char → Option (Nat × List Char)
  | _, _, _, [] => none
  | k, w, i, c :: s =>
    match digitValue? c with
    | none => none
    | some d =>
      let t := threshold k bias
      if d < t then some (i + d * w, s)
      else readDistance bias (k + 36) (w * (36 - t)) (i + d * w) s

/-- Reads the characters beyond ASCII into a label, at most `fuel` of them. -/
def readAll : Nat → Nat → Nat → Nat → List Char → List Char → Option (List Char)
  | _, _, _, _, label, [] => some label
  | 0, _, _, _, _, _ :: _ => none
  | fuel + 1, n, i, bias, label, s =>
    match readDistance bias 36 1 i s with
    | none => none
    | some (j, rest) =>
      let count := label.length + 1
      let n := n + j / count
      if 0x10FFFF < n || (0xD800 ≤ n && n ≤ 0xDFFF) then none
      else
        let place := j % count
        readAll fuel n (place + 1) (adapt (j - i) count (i == 0 && label.all (·.toNat < 0x80)))
          (label.take place ++ Char.ofNat n :: label.drop place) rest

/-- The label that ASCII text stands for, which is given without its mark. -/
def decode (s : List Char) : Option (List Char) :=
  let tail := (s.reverse.takeWhile (· != '-')).reverse
  let head := if tail.length == s.length then [] else s.take (s.length - tail.length - 1)
  if head.all (·.toNat < 0x80) then readAll (tail.length + 1) 0x80 0 72 head tail else none

end Punycode

end Url

end RemoteFile
