import RemoteFile.Duration

/-!
# The text of a duration

A duration is written in the largest of the units `s`, `ms`, `µs` and `ns` of which it has at
least one, with as many decimal places as it takes to be exact and none that is a trailing zero:
`30s`, `1.5ms`, `1.0000005s`, `100ns`, and `0ns` for no time at all.
-/

namespace RemoteFile

namespace Duration

/-- The decimal places of `part / 10 ^ width`, without trailing zeros. -/
def places (width part : Nat) : String :=
  let digits := (toString part).toList
  let padded := List.replicate (width - digits.length) '0' ++ digits
  String.ofList (padded.reverse.dropWhile (· == '0')).reverse

/-- The number of units in a duration, exactly. A unit has `size` nanoseconds, which is a one with
`width` zeros. -/
def inUnit (size width : Nat) (unit : String) (d : Duration) : String :=
  let whole := toString (d.nanos / size)
  let rest := places width (d.nanos % size)
  if rest.isEmpty then whole ++ unit else whole ++ "." ++ rest ++ unit

/-- The text of a duration. -/
def text (d : Duration) : String :=
  if nanosPerSecond ≤ d.nanos then d.inUnit nanosPerSecond 9 "s"
  else if nanosPerMilli ≤ d.nanos then d.inUnit nanosPerMilli 6 "ms"
  else if 1000 ≤ d.nanos then d.inUnit 1000 3 "µs"
  else d.inUnit 1 0 "ns"

end Duration

end RemoteFile
