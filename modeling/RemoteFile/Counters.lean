import RemoteFile.Json.Text
import RemoteFile.Words

/-!
# Counters

What happened to one file: bytes, requests, connections, retries and renewals. Bytes are counted in
words of 64 bits, which start again from zero when they are full; the other counters count single
events, of which there are never that many.
-/

namespace RemoteFile

/-- The number of values of a counter of bytes. -/
abbrev counterLimit : Nat := wordLimit

/-- What happened to one file. -/
structure Counters where
  /-- Bytes handed to callers. -/
  bytesServed : Nat := 0
  /-- Bytes read and dropped to move a connection forward. -/
  bytesDiscarded : Nat := 0
  /-- Requests issued, probes included. -/
  requests : Nat := 0
  /-- Connections opened. -/
  connsOpened : Nat := 0
  /-- Times that an idle connection was used again. -/
  connsReused : Nat := 0
  /-- Idle connections closed to make room or because they were stale. -/
  connsEvicted : Nat := 0
  /-- Connections dropped after an error or once they were read to their end. -/
  connsDiscarded : Nat := 0
  /-- The most connections that there were at any time. -/
  peakConns : Nat := 0
  /-- Attempts made again. -/
  retries : Nat := 0
  /-- URLs renewed. -/
  renewals : Nat := 0
deriving DecidableEq, Repr, Inhabited

namespace Counters

/-- The counters in order. -/
def toList (c : Counters) : List Nat :=
  [c.bytesServed, c.bytesDiscarded, c.requests, c.connsOpened, c.connsReused, c.connsEvicted,
    c.connsDiscarded, c.peakConns, c.retries, c.renewals]

/-- Counts bytes handed to a caller. -/
def served (c : Counters) (n : Nat) : Counters :=
  { c with bytesServed := (c.bytesServed + n) % counterLimit }

/-- Counts bytes that were skipped. -/
def discarded (c : Counters) (n : Nat) : Counters :=
  { c with bytesDiscarded := (c.bytesDiscarded + n) % counterLimit }

/-- Counts a request. -/
def requested (c : Counters) : Counters := { c with requests := c.requests + 1 }

/-- Counts a connection opened. -/
def opened (c : Counters) : Counters := { c with connsOpened := c.connsOpened + 1 }

/-- Counts an idle connection used again. -/
def reused (c : Counters) : Counters := { c with connsReused := c.connsReused + 1 }

/-- Counts idle connections closed. -/
def evicted (c : Counters) (n : Nat) : Counters := { c with connsEvicted := c.connsEvicted + n }

/-- Counts a connection dropped after use. -/
def dropped (c : Counters) : Counters := { c with connsDiscarded := c.connsDiscarded + 1 }

/-- Notes how many connections there are now. -/
def lived (c : Counters) (n : Nat) : Counters := { c with peakConns := max c.peakConns n }

/-- Counts an attempt made again. -/
def retried (c : Counters) : Counters := { c with retries := c.retries + 1 }

/-- Counts a URL renewed. -/
def renewed (c : Counters) : Counters := { c with renewals := c.renewals + 1 }

/-- Reads served by a connection that was open already, as a share of all. -/
def reuseRatio (c : Counters) : Option Float :=
  let total := (c.connsOpened + c.connsReused) % counterLimit
  if total == 0 then none else some (c.connsReused.toFloat / total.toFloat)

/-- The counters as a summary of four lines. -/
def summary (c : Counters) : String :=
  "served " ++ toString c.bytesServed ++ " bytes (" ++ toString c.bytesDiscarded ++
    " discarded by forward skips)\n" ++
  "issued " ++ toString c.requests ++ " requests\n" ++
  "connections: " ++ toString c.connsOpened ++ " opened, " ++ toString c.connsReused ++
    " reused, " ++ toString c.connsEvicted ++ " evicted, " ++ toString c.connsDiscarded ++
    " discarded, " ++ toString c.peakConns ++ " peak\n" ++
  toString c.retries ++ " retries, " ++ toString c.renewals ++ " URL renewals"

/-- The counters as JSON. -/
def toJson (c : Counters) : String :=
  Json.object
    [("bytes_served", Json.nat c.bytesServed), ("bytes_discarded", Json.nat c.bytesDiscarded),
      ("requests", Json.nat c.requests), ("conns_opened", Json.nat c.connsOpened),
      ("conns_reused", Json.nat c.connsReused), ("conns_evicted", Json.nat c.connsEvicted),
      ("conns_discarded", Json.nat c.connsDiscarded), ("peak_conns", Json.nat c.peakConns),
      ("retries", Json.nat c.retries), ("renewals", Json.nat c.renewals)]

end Counters

end RemoteFile
