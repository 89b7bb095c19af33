import RemoteFile.Duration.Seconds
import RemoteFile.Options

/-!
# Backoff

The delay before a retry grows by the multiplier of the policy from one retry to the next, up to
the longest delay, and is then spread at random around its nominal length.
-/

namespace RemoteFile

namespace Backoff

/-- Repeated squaring: `acc * base ^ n`, with the bits of `n` taken from the lowest on. -/
def powerBits : Nat → Float → Float → Nat → Float
  | 0, acc, _, _ => acc
  | fuel + 1, acc, base, n =>
    let acc := if n % 2 == 1 then acc * base else acc
    if n / 2 == 0 then acc else powerBits fuel acc (base * base) (n / 2)

/-- The power of a floating point number by repeated squaring, each product rounded. -/
def power (base : Float) (n : Nat) : Float := powerBits (n.log2 + 1) 1.0 base n

/-- The largest exponent that a delay grows by. -/
abbrev exponentLimit : Nat := 2147483647

/-- The larger of a number and zero; zero for what is not a number. -/
def atLeastZero (x : Float) : Float := if 0.0 < x then x else 0.0

/-- The delay before retry number `retry`, the first one having number 1:
`baseDelay * multiplier ^ (retry - 1)`, capped by the longest delay. -/
def delay (policy : RetryPolicy) (retry : Nat) : Duration :=
  if retry == 0 then Duration.zero
  else
    let factor := power policy.multiplier (min (retry - 1) exponentLimit)
    let nominal := policy.baseDelay.toSeconds * factor
    if !nominal.isFinite || policy.maxDelay.toSeconds ≤ nominal then policy.maxDelay
    else (Duration.ofSeconds? (atLeastZero nominal)).getD policy.maxDelay

/-- Spreads a delay: `sample`, a number from 0 to 1, picks a length within `jitter / 2` of the
delay on either side. -/
def spread (delay : Duration) (jitter sample : Float) : Duration :=
  if jitter ≤ 0.0 || delay.isZero then delay
  else
    let seconds := delay.toSeconds
    let offset := seconds * jitter * (sample - 0.5)
    (Duration.ofSeconds? (atLeastZero (seconds + offset))).getD delay

end Backoff

end RemoteFile
