import RemoteFile.Options
import RemoteFile.Pool
import RemoteFile.Source
import RemoteFile.Task
import RemoteFile.Transport

/-!
# The world of a file

All that the tasks of one file share: the time, the transport, the current URL, the pool, whether
the file is closed or cancelled, the counters, and a journal of what can be seen from outside. The
`Setting` is what does not change: the transport's rules, the renewer, the options and the size.
-/

namespace RemoteFile

/-- What does not change while a file is open. -/
structure Setting (σ τ : Type) where
  /-- The rules of the transport. -/
  net : Transport σ τ
  /-- What each call of the renewer comes to; none if URLs cannot be renewed. -/
  renewer : Option (Nat → RenewerReply)
  /-- The options. -/
  options : Options
  /-- The number of bytes of the object. -/
  size : Nat
  /-- Delays before retries are waited out. -/
  rests : Bool
  /-- The random numbers that delays are spread by. -/
  sample : Nat → Float
  /-- The wall clock at each time, in milliseconds. -/
  clock : Nat → Int

/-- What the tasks of a file share. -/
structure World (σ : Type) where
  /-- The time, in milliseconds. -/
  now : Nat
  /-- The state of the transport. -/
  net : σ
  /-- The current URL. -/
  resolver : Resolver
  /-- The connections. -/
  pool : Pool
  /-- The file is closed. -/
  closed : Bool
  /-- Reads are called off. -/
  cancelled : Bool
  /-- The counters. -/
  counters : Counters
  /-- Random numbers used so far. -/
  draws : Nat
  /-- What was seen from outside, the latest first. -/
  journal : List Event

namespace World

variable {σ τ : Type}

/-- Nothing has happened yet. -/
def fresh (net : σ) (url : String) (expiresAt : Option Int) : World σ :=
  { now := 0, net := net, resolver := Resolver.fresh url expiresAt, pool := Pool.fresh
    closed := false, cancelled := false, counters := {}, draws := 0, journal := [] }

/-- Enters an event into the journal. -/
def record (w : World σ) (e : Event) : World σ := { w with journal := e :: w.journal }

/-- Writes to the log. -/
def note (w : World σ) (n : Notice) : World σ := w.record (.notice n)

/-- Writes to the log, several times. -/
def noteAll (w : World σ) (l : List Notice) : World σ := l.foldl note w

/-- Counts. -/
def count (w : World σ) (f : Counters → Counters) : World σ := { w with counters := f w.counters }

/-- Changes the resolver. -/
def resolve (w : World σ) (f : Resolver → Resolver) : World σ := { w with resolver := f w.resolver }

/-- Changes the pool. -/
def manage (w : World σ) (f : Pool → Pool) : World σ := { w with pool := f w.pool }

/-- Calls the transport. -/
def issue (s : Setting σ τ) (c : Call) (w : World σ) : τ × World σ :=
  let (ticket, net, notices) := s.net.send w.now c w.net
  (ticket, ({ w with net := net }.record (.call c)).noteAll notices)

/-- Collects the answer to a request for a range. -/
def collect (s : Setting σ τ) (ticket : τ) (w : World σ) : Except Failure Body × World σ :=
  let (answer, net, notices) := s.net.opened ticket w.net
  (answer, { w with net := net }.noteAll notices)

/-- What has happened since the journal had the given length, in order. -/
def since (w : World σ) (before : Nat) : List Event :=
  (w.journal.take (w.journal.length - before)).reverse

/-- Moves the clock forward. -/
def pass (millis : Nat) (w : World σ) : World σ := { w with now := w.now + millis }

/-- Closes a response. -/
def hangUp (s : Setting σ τ) (w : World σ) : World σ := { w with net := s.net.closed w.net }

end World

/-- The failure of a request that was not answered within a limit. -/
def noResponse (limit : Duration) : Failure := .timeout ("no response within " ++ limit.text)

end RemoteFile
