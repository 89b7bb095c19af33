import RemoteFile.Connection.Read
import RemoteFile.Operation

/-!
# Reading through the pool

One attempt to read at a position: find a connection or open one, read on it, and give it back. A
connection goes back to the pool only after a read on it that succeeded and only if it has bytes
left; in every other case it is closed and its slot becomes free.
-/

namespace RemoteFile

namespace World

variable {σ τ : Type}

/-- Frees a slot and tells those who wait. -/
def freeSlot (w : World σ) : World σ := w.manage fun p => p.release.wake

/-- Closes a connection that is of no further use. -/
def discard (s : Setting σ τ) (c : Connection) (w : World σ) : World σ :=
  ((w.count Counters.dropped).note (.discarding c.id c.cursor c.isSpent)).hangUp s

/-- Closes a connection after use, and frees its slot. -/
def giveUp (s : Setting σ τ) (c : Connection) (w : World σ) : World σ :=
  (w.discard s c).freeSlot

/-- Gives a connection back after a read that succeeded. -/
def giveBack (s : Setting σ τ) (c : Connection) (w : World σ) : World σ :=
  if c.isSpent || w.pool.closed then w.giveUp s c
  else w.manage fun p => (p.putBack (c.touch w.now)).wake

/-- Closes an idle connection that was unused for too long. -/
def closeStale (s : Setting σ τ) (w : World σ) (c : Connection) : World σ :=
  ((w.count (·.evicted 1)).note (.closingStale c.id)).hangUp s

/-- Closes all idle connections that were unused for too long. -/
def sweep (s : Setting σ τ) (w : World σ) : World σ :=
  ((w.pool.stale s.options.pool w.now).foldl (closeStale s) w).manage
    (·.sweep s.options.pool w.now)

/-- Closes an idle connection to make room for a new one. -/
def evict (s : Setting σ τ) (c : Connection) (w : World σ) : World σ :=
  ((w.count (·.evicted 1)).note (.evicting c.id c.cursor)).hangUp s

/-- Closes the pool with all its idle connections, and tells those who wait. -/
def closePool (s : Setting σ τ) (w : World σ) : World σ :=
  let idle := w.pool.idle
  let w := (w.manage Pool.close).note (.poolClosed idle.length)
  (idle.foldl (fun w _ => w.hangUp s) w).manage Pool.wake

end World

/-- Where an attempt stands. -/
inductive Fetch.Phase (τ : Type) where
  /-- About to look for a connection. -/
  | looking
  /-- Waiting until the pool calls out, having heard so many calls. -/
  | parked (since : Nat)
  /-- A connection is being opened, in a slot of its own. -/
  | opening (id stop : Nat) (ticket : τ) (deadline : Nat)
  /-- Reading on a connection. -/
  | reading (r : Reading)

/-- One attempt to read through the pool. -/
structure Fetch (τ : Type) where
  /-- The URL of the attempt. -/
  source : Source
  /-- Where to read. -/
  offset : Nat
  /-- How much to read at most. -/
  len : Nat
  /-- Where it stands. -/
  phase : Fetch.Phase τ

namespace Fetch

variable {σ τ : Type}

/-- What a turn of an attempt leads to. -/
abbrev Outcome (σ τ : Type) := Turn (Fetch τ) (Except Failure (List UInt8)) × World σ

/-- Begins to read on a connection. -/
def use (s : Setting σ τ) (f : Fetch τ) (c : Connection) (w : World σ) : Outcome σ τ :=
  match Reading.start c f.offset f.len with
  | .ok r => (.moved { f with phase := .reading r }, w)
  | .error e => (.done (.error e), w.giveUp s c)

/-- Asks for a response to read from, in a slot that is set aside. -/
def request (s : Setting σ τ) (f : Fetch τ) (w : World σ) : Outcome σ τ :=
  let id := w.pool.nextId
  let stop := rangeStop f.offset s.size s.options.pool.maxRangeLen
  let w := (w.manage fun p => p.number.2).count Counters.requested
  let (ticket, w) := w.issue s (.openRange f.source.url (ByteRange.between f.offset stop))
  let deadline := s.options.timeouts.response.timerFrom w.now
  (.moved { f with phase := .opening id stop ticket deadline }, w)

/-- Looks for a connection. -/
def look (s : Setting σ τ) (f : Fetch τ) (w : World σ) : Outcome σ τ :=
  if w.pool.closed then (.done (.error .closed), w)
  else
    let w := w.sweep s
    let (choice, pool) := w.pool.choose s.options.pool f.offset
    let w := w.manage fun _ => pool
    match choice with
    | .reuse c skip =>
      f.use s c ((w.count Counters.reused).note (.reusing c.id f.offset skip))
    | .reserve => f.request s (w.count (·.lived pool.live))
    | .replace c => f.request s (w.evict s c)
    | .wait => (.moved { f with phase := .parked pool.wakes }, w.note (.waiting f.offset))

/-- Waits for the response that was asked for. -/
def await (s : Setting σ τ) (f : Fetch τ) (id stop : Nat) (ticket : τ) (deadline : Nat)
    (w : World σ) : Outcome σ τ :=
  match s.net.arrival ticket (some deadline) w.now with
  | .pending wake => (.waits f wake, w)
  | .late => (.done (.error (noResponse s.options.timeouts.response)), w.freeSlot)
  | .here =>
    match w.collect s ticket with
    | (.error e, w) => (.done (.error e), w.freeSlot)
    | (.ok body, w) =>
      f.use s (Connection.opened id f.offset stop body w.now)
        ((w.count Counters.opened).note (.opened id f.offset stop f.source.generation))

/-- Reads on. -/
def read (s : Setting σ τ) (f : Fetch τ) (r : Reading) (w : World σ) : Outcome σ τ :=
  match r.step s.options.timeouts.idle w with
  | (.moved r, w) => (.moved { f with phase := .reading r }, w)
  | (.waits r wake, w) => (.waits { f with phase := .reading r } wake, w)
  | (.done (.ok bytes, c), w) => (.done (.ok bytes), w.giveBack s c)
  | (.done (.error e, c), w) => (.done (.error e), w.giveUp s c)

/-- One turn of an attempt. -/
def step (s : Setting σ τ) (f : Fetch τ) (w : World σ) : Outcome σ τ :=
  match f.phase with
  | .looking => f.look s w
  | .parked since =>
    if since < w.pool.wakes then (.moved { f with phase := .looking }, w) else (.waits f none, w)
  | .opening id stop ticket deadline => f.await s id stop ticket deadline w
  | .reading r => f.read s r w

/-- Drops an attempt: a slot that it holds becomes free, a connection is closed. -/
def drop (s : Setting σ τ) (f : Fetch τ) (w : World σ) : World σ :=
  match f.phase with
  | .looking | .parked _ => w
  | .opening _ _ _ _ => w.freeSlot
  | .reading r => w.giveUp s r.conn

/-- Attempts to read at most `len` bytes at `offset`. -/
def attempts (s : Setting σ τ) (offset len : Nat) :
    Attempts (World σ) (Fetch τ) (List UInt8) where
  step := step s
  drop := drop s
  start _ source := ⟨source, offset, len, .looking⟩

end Fetch

end RemoteFile
