import RemoteFile.Options
import RemoteFile.Text.Quoted

/-!
# The text of options

Options as they are shown in a diagnosis: every record by its name with its fields in order,
durations and text in their own notation, floating point numbers always with a fraction or an
exponent.
-/

namespace RemoteFile

open Text Decimal

/-- A record with its fields in order. -/
def shownRecord (name : String) (fields : List (String × String)) : String :=
  name ++ " \x7b " ++ String.intercalate ", " (fields.map fun f => f.1 ++ ": " ++ f.2) ++ " \x7d"

/-- An optional value. -/
def shownOption {α : Type} (shown : α → String) : Option α → String
  | none => "None"
  | some a => "Some(" ++ shown a ++ ")"

/-- A truth value. -/
def shownBool (b : Bool) : String := if b then "true" else "false"

/-- The text of pool options. -/
def PoolOptions.text (p : PoolOptions) : String :=
  shownRecord "PoolOptions"
    [("max_conns", toString p.maxConns), ("max_skip", toString p.maxSkip),
      ("stale_after", p.staleAfter.text),
      ("max_range_len", shownOption (fun n : Nat => toString n) p.maxRangeLen)]

/-- The text of timeouts. -/
def Timeouts.text (t : Timeouts) : String :=
  shownRecord "Timeouts" [("connect", t.connect.text), ("idle", t.idle.text)]

/-- The text of a retry policy. -/
def RetryPolicy.text (p : RetryPolicy) : String :=
  shownRecord "RetryPolicy"
    [("max_attempts", toString p.maxAttempts), ("base_delay", p.baseDelay.text),
      ("multiplier", Layout.precise.text p.multiplier), ("max_delay", p.maxDelay.text),
      ("jitter", Layout.precise.text p.jitter)]

/-- The text of headers. -/
def shownHeaders (headers : List (String × String)) : String :=
  let pairs := headers.map fun h => "(" ++ quoted h.1 ++ ", " ++ quoted h.2 ++ ")"
  "[" ++ String.intercalate ", " pairs ++ "]"

/-- The text of all options. A source of URLs has no text of its own; a point in time is not
shown. -/
def Options.text (o : Options) : String :=
  shownRecord "HtfsOptions"
    [("dump_stats", shownBool o.dumpStats), ("pool", o.pool.text), ("timeouts", o.timeouts.text),
      ("retry", o.retry.text), ("headers", shownHeaders o.headers),
      ("renewer", if o.renewable then "Some(" ++ quoted "\x7b ... \x7d" ++ ")" else "None"),
      ("expires_at", "None"), ("expiry_margin", o.expiryMargin.text),
      ("cancellation", shownOption
        (fun b => shownRecord "CancellationToken" [("is_cancelled", shownBool b)])
        o.cancellation)]

end RemoteFile
