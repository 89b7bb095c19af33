import RemoteFile.Words

/-!
# Durations

A length of time is a whole number of nanoseconds. The longest one has `2 ^ 64 - 1` whole seconds
and `999999999` further nanoseconds; sums stop there.

Main statement:

* `Duration.toMillis_ofMillis` : whole milliseconds survive being kept as a duration.
-/

namespace RemoteFile

/-- A length of time, in whole nanoseconds. -/
structure Duration where
  /-- How many nanoseconds it lasts. -/
  nanos : Nat
deriving DecidableEq, Repr, Inhabited

namespace Duration

/-- Nanoseconds in a second. -/
abbrev nanosPerSecond : Nat := 1000000000

/-- Nanoseconds in a millisecond. -/
abbrev nanosPerMilli : Nat := 1000000

/-- No time at all. -/
def zero : Duration := ⟨0⟩

/-- The longest duration. -/
def longest : Duration := ⟨(wordLimit - 1) * nanosPerSecond + 999999999⟩

/-- A number of seconds and of further nanoseconds. -/
def ofParts (seconds nanos : Nat) : Duration := ⟨seconds * nanosPerSecond + nanos⟩

/-- A number of seconds. -/
def ofSeconds (seconds : Nat) : Duration := ofParts seconds 0

/-- A number of milliseconds. -/
def ofMillis (millis : Nat) : Duration := ⟨millis * nanosPerMilli⟩

/-- The whole seconds of a duration. -/
def wholeSeconds (d : Duration) : Nat := d.nanos / nanosPerSecond

/-- The nanoseconds beyond the whole seconds. -/
def subsecondNanos (d : Duration) : Nat := d.nanos % nanosPerSecond

/-- The whole milliseconds of a duration. -/
def toMillis (d : Duration) : Nat := d.nanos / nanosPerMilli

/-- The fewest whole milliseconds that are not shorter: when a timer of this length fires. -/
def ceilMillis (d : Duration) : Nat := (d.nanos + (nanosPerMilli - 1)) / nanosPerMilli

/-- When a timer of this length fires that is started at `now`, in whole milliseconds. A timer that
no clock can reach fires after thirty years. -/
def timerFrom (now : Nat) (d : Duration) : Nat :=
  if signedLimit ≤ d.wholeSeconds then now + 30 * 365 * 86400000 else now + d.ceilMillis

/-- No time at all? -/
def isZero (d : Duration) : Bool := d.nanos == 0

/-- The sum, or the longest duration if it is longer than that. -/
def saturatingAdd (a b : Duration) : Duration := ⟨min (a.nanos + b.nanos) longest.nanos⟩

theorem toMillis_ofMillis (n : Nat) : (ofMillis n).toMillis = n := by
  simp [ofMillis, toMillis]

theorem le_timerFrom (now : Nat) (d : Duration) : now ≤ d.timerFrom now := by
  unfold timerFrom
  split <;> exact Nat.le_add_right _ _

end Duration

end RemoteFile
