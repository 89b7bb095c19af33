import RemoteFile.Decimal.Binary
import RemoteFile.Duration

/-!
# Durations as floating point seconds

Delays are scaled and spread in floating point seconds. `toSeconds` adds the two parts of a
duration; `ofSeconds?` takes the whole number of nanoseconds nearest to an exact number of seconds,
an exact half going to the even neighbour.
-/

namespace RemoteFile

namespace Duration

/-- The duration in seconds: its whole seconds plus the fraction of its nanoseconds. -/
def toSeconds (d : Duration) : Float :=
  d.wholeSeconds.toFloat + d.subsecondNanos.toFloat / nanosPerSecond.toFloat

/-- The duration nearest to a number of seconds; none for a negative number, for one that is too
large and for one that is not a number. -/
def ofSeconds? (seconds : Float) : Option Duration :=
  match Decimal.Binary.read seconds with
  | .finite negative mantissa exponent =>
    let (num, den) := Decimal.twoPower exponent
    if negative && mantissa != 0 then none
    else if wordLimit * den ≤ mantissa * num then none
    else some ⟨Decimal.roundHalfEven (mantissa * num * nanosPerSecond) den⟩
  | _ => none

end Duration

end RemoteFile
