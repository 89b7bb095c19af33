import RemoteFile.Json.Record
import RemoteFile.Options

/-!
# Loading options

The fields of the option records, by their names in a configuration text. Durations are given in
whole milliseconds.
-/

namespace RemoteFile

open Json (RecordField natural nullable floating)

/-- A duration in milliseconds. -/
def Duration.field {ρ : Type} (name : String) (set : ρ → Duration → ρ) : RecordField ρ :=
  RecordField.of name (natural wordLimit) fun r n => set r (Duration.ofMillis n)

/-- The fields of pool options. -/
def PoolOptions.fields : List (RecordField PoolOptions) :=
  [RecordField.of "max_conns" (natural wordLimit) fun p n => { p with maxConns := n },
    RecordField.of "max_skip" (natural wordLimit) fun p n => { p with maxSkip := n },
    Duration.field "stale_after" fun p d => { p with staleAfter := d },
    RecordField.of "max_range_len" (nullable (natural wordLimit)) fun p n =>
      { p with maxRangeLen := n }]

/-- The fields of timeouts. -/
def Timeouts.fields : List (RecordField Timeouts) :=
  [Duration.field "connect" fun t d => { t with connect := d },
    Duration.field "idle" fun t d => { t with idle := d }]

/-- The fields of a retry policy. -/
def RetryPolicy.fields : List (RecordField RetryPolicy) :=
  [RecordField.of "max_attempts" (natural shortLimit) fun p n => { p with maxAttempts := n },
    Duration.field "base_delay" fun p d => { p with baseDelay := d },
    RecordField.of "multiplier" floating fun p x => { p with multiplier := x },
    Duration.field "max_delay" fun p d => { p with maxDelay := d },
    RecordField.of "jitter" floating fun p x => { p with jitter := x }]

/-- Loads pool options. -/
def PoolOptions.load (text : String) : Except Json.Fault PoolOptions :=
  Json.load fields standard text

/-- Loads timeouts. -/
def Timeouts.load (text : String) : Except Json.Fault Timeouts := Json.load fields standard text

/-- Loads a retry policy. -/
def RetryPolicy.load (text : String) : Except Json.Fault RetryPolicy :=
  Json.load fields standard text

/-- Says the same as another policy; floating point numbers are compared as such. -/
def RetryPolicy.same (a b : RetryPolicy) : Bool :=
  a.maxAttempts == b.maxAttempts && a.baseDelay == b.baseDelay && a.multiplier == b.multiplier &&
    a.maxDelay == b.maxDelay && a.jitter == b.jitter

end RemoteFile
