import RemoteFile.Decimal.Layout
import RemoteFile.Failure

/-!
# Options

What the user of a remote file can set: the connection pool, the timeouts, the retry policy, and
how the file is opened. Every option has a default; `Options.validate` rejects what the engine
cannot run with.
-/

namespace RemoteFile

/-- How connections are pooled. -/
structure PoolOptions where
  /-- The most connections that a file has at any time. -/
  maxConns : Nat
  /-- The longest gap that an open connection reads and drops in place of a new request. -/
  maxSkip : Nat
  /-- Idle connections that were unused for longer than this are closed. -/
  staleAfter : Duration
  /-- The most bytes that one request asks for. -/
  maxRangeLen : Option Nat
deriving DecidableEq, Repr

/-- Eight connections, gaps of up to a mebibyte, ten seconds, and requests to the end. -/
def PoolOptions.standard : PoolOptions := ⟨8, 1048576, Duration.ofSeconds 10, none⟩

/-- How long the transport may take. -/
structure Timeouts where
  /-- To establish a connection. -/
  connect : Duration
  /-- To send the next chunk of an open response. -/
  idle : Duration
deriving DecidableEq, Repr

namespace Timeouts

/-- Half a minute each. -/
def standard : Timeouts := ⟨Duration.ofSeconds 30, Duration.ofSeconds 30⟩

/-- How long a response may take to arrive: to connect, and one period of silence. -/
def response (t : Timeouts) : Duration := t.connect.saturatingAdd t.idle

end Timeouts

/-- When and how often a failed attempt is made again. -/
structure RetryPolicy where
  /-- All attempts, the first one included. -/
  maxAttempts : Nat
  /-- The delay before the first retry. -/
  baseDelay : Duration
  /-- What the delay grows by from one retry to the next. -/
  multiplier : Float
  /-- The longest delay. -/
  maxDelay : Duration
  /-- The share of a delay by which it is spread at random. -/
  jitter : Float
deriving Repr

namespace RetryPolicy

/-- Six attempts, delays that double from a tenth of a second up to ten seconds, spread by a
fifth. -/
def standard : RetryPolicy := ⟨6, Duration.ofMillis 100, 2.0, Duration.ofSeconds 10, 0.2⟩

/-- So many attempts, without delays. -/
def immediate (maxAttempts : Nat) : RetryPolicy :=
  { standard with
    maxAttempts := maxAttempts, baseDelay := Duration.zero, maxDelay := Duration.zero
    jitter := 0.0 }

end RetryPolicy

/-- How a remote file is opened and read. -/
structure Options where
  /-- The counters are written to the log when the file is closed. -/
  dumpStats : Bool
  /-- How connections are pooled. -/
  pool : PoolOptions
  /-- How long the transport may take. -/
  timeouts : Timeouts
  /-- When and how often a failed attempt is made again. -/
  retry : RetryPolicy
  /-- Headers that are sent with every request. -/
  headers : List (String × String)
  /-- Fresh URLs can be had. -/
  renewable : Bool
  /-- URLs that expire within this time are renewed before use. -/
  expiryMargin : Duration
  /-- The token whose cancellation aborts every read, and whether it is cancelled. -/
  cancellation : Option Bool
deriving Repr

namespace Options

/-- Nothing set. -/
def standard : Options :=
  { dumpStats := false, pool := .standard, timeouts := .standard, retry := .standard, headers := []
    renewable := false, expiryMargin := Duration.ofSeconds 5, cancellation := none }

/-- Adds a header. -/
def addHeader (o : Options) (name value : String) : Options :=
  { o with headers := o.headers ++ [(name, value)] }

/-- Rejects values that the engine cannot run with; the first rule that is broken counts. -/
def validate (o : Options) : Except Failure Unit :=
  if o.pool.maxConns == 0 then
    .error (.invalidConfig "max_conns must be at least 1")
  else if o.pool.maxRangeLen == some 0 then
    .error (.invalidConfig "max_range_len must be positive")
  else if o.retry.maxAttempts == 0 then
    .error (.invalidConfig "max_attempts must be at least 1")
  else if !(1.0 ≤ o.retry.multiplier) then
    .error (.invalidConfig
      ("retry multiplier must be >= 1.0, got " ++ Decimal.Layout.plain.text o.retry.multiplier))
  else if !(0.0 ≤ o.retry.jitter && o.retry.jitter ≤ 1.0) then
    .error (.invalidConfig
      ("retry jitter must be within [0, 1], got " ++ Decimal.Layout.plain.text o.retry.jitter))
  else if o.timeouts.idle.isZero || o.timeouts.connect.isZero then
    .error (.invalidConfig "timeouts must be non-zero")
  else .ok ()

/-- The defaults are accepted. -/
example : standard.validate = .ok () := rfl

end Options

end RemoteFile
