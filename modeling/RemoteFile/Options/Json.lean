import RemoteFile.Json.Text
import RemoteFile.Options

/-!
# Options as JSON

Options are written as JSON objects with their fields in order; durations are cut to whole
milliseconds and capped at `2 ^ 64 - 1` of them.
-/

namespace RemoteFile

/-- The milliseconds that a duration is written as. -/
def Duration.writtenMillis (d : Duration) : Nat := min d.toMillis (wordLimit - 1)

/-- Pool options as JSON. -/
def PoolOptions.toJson (p : PoolOptions) : String :=
  Json.object
    [("max_conns", Json.nat p.maxConns), ("max_skip", Json.nat p.maxSkip),
      ("stale_after", Json.nat p.staleAfter.writtenMillis),
      ("max_range_len", Json.option Json.nat p.maxRangeLen)]

/-- Timeouts as JSON. -/
def Timeouts.toJson (t : Timeouts) : String :=
  Json.object
    [("connect", Json.nat t.connect.writtenMillis), ("idle", Json.nat t.idle.writtenMillis)]

/-- A retry policy as JSON. -/
def RetryPolicy.toJson (p : RetryPolicy) : String :=
  Json.object
    [("max_attempts", Json.nat p.maxAttempts), ("base_delay", Json.nat p.baseDelay.writtenMillis),
      ("multiplier", Json.float p.multiplier), ("max_delay", Json.nat p.maxDelay.writtenMillis),
      ("jitter", Json.float p.jitter)]

end RemoteFile
