import RemoteFile.Body
import RemoteFile.Event
import RemoteFile.Range

/-!
# Connections

A connection is one open response, read strictly forward: bytes before the wanted position are
dropped, the wanted ones are copied. A read in progress is a `Reading`; it uses up the bytes that
are there (`consume`), then pulls the next chunk, each pull with a deadline of its own.

Main statements:

* `Reading.received_consume` : using up bytes moves the cursor by as many as it takes away.
* `Reading.copied_consume` : what is copied are the bytes right after the skipped ones.
-/

namespace RemoteFile

/-- One open response. -/
structure Connection where
  /-- Its number within the pool. -/
  id : Nat
  /-- The next byte that it yields. -/
  cursor : Nat
  /-- The byte after its last one. -/
  stop : Nat
  /-- Bytes that have arrived and are not yet used. -/
  pending : List UInt8
  /-- What is still to arrive. -/
  body : Body
  /-- When it was last used, in milliseconds. -/
  lastUsed : Nat
deriving DecidableEq, Repr

namespace Connection

/-- A response that was just opened. -/
def opened (id start stop : Nat) (body : Body) (now : Nat) : Connection :=
  ⟨id, start, stop, [], body, now⟩

/-- All bytes up to the end have been used. -/
def isSpent (c : Connection) : Bool := c.stop ≤ c.cursor

/-- How many bytes have to be dropped to get to `offset`; none if it cannot be served. -/
def skipFor (c : Connection) (offset maxSkip : Nat) : Option Nat :=
  bytesToSkip c.cursor c.stop offset maxSkip

/-- Notes that the connection is in use at the time `now`. -/
def touch (c : Connection) (now : Nat) : Connection := { c with lastUsed := now }

end Connection

/-- A read that is under way on a connection. -/
structure Reading where
  /-- The connection. -/
  conn : Connection
  /-- Bytes to drop in all. -/
  skip : Nat
  /-- Bytes still to drop. -/
  ahead : Nat
  /-- Bytes still to copy. -/
  left : Nat
  /-- The pieces copied so far, the latest one first. -/
  copied : List (List UInt8)
  /-- When the current pull is given up. -/
  deadline : Option Nat
deriving DecidableEq, Repr

namespace Reading

/-- Starts to read at most `len` bytes at `offset`: fewer if the connection ends before, and none
at all outside of what it still yields. -/
def start (c : Connection) (offset len : Nat) : Except Failure Reading :=
  if offset < c.cursor || c.stop ≤ offset then .error (.outOfRange offset c.stop)
  else
    .ok { conn := c, skip := offset - c.cursor, ahead := offset - c.cursor
          left := min len (c.stop - offset), copied := [], deadline := none }

/-- How many of the bytes that are there are dropped. -/
def dropped (r : Reading) : Nat := min r.ahead r.conn.pending.length

/-- Which of the bytes that are there are copied. -/
def taken (r : Reading) : List UInt8 := (r.conn.pending.drop r.dropped).take r.left

/-- Uses up the bytes that are there: drops the ones before the wanted position, then copies. -/
def consume (r : Reading) : Reading :=
  { r with
    conn := { r.conn with
      cursor := r.conn.cursor + r.dropped + r.taken.length
      pending := (r.conn.pending.drop r.dropped).drop r.left }
    ahead := r.ahead - r.dropped
    left := r.left - r.taken.length
    copied := if r.taken.isEmpty then r.copied else r.taken :: r.copied }

/-- The wanted position is reached and all wanted bytes are copied. -/
def isComplete (r : Reading) : Bool := r.ahead == 0 && r.left == 0

/-- The bytes that were copied. -/
def bytes (r : Reading) : List UInt8 := r.copied.reverse.flatten

/-- What the next pull of a read comes to. -/
inductive Progress where
  /-- Bytes arrived. -/
  | arrived (r : Reading)
  /-- Nothing happens before this time. -/
  | waits (r : Reading) (wake : Nat)
  /-- The read fails and leaves the connection like this. -/
  | failed (f : Failure) (c : Connection)
deriving DecidableEq, Repr

/-- Pulls the next chunk at the time `now`; the first look at it sets its deadline. -/
def receive (r : Reading) (now : Nat) (idle : Duration) : Progress :=
  let deadline := r.deadline.getD (idle.timerFrom now)
  let (pull, body) := r.conn.body.pull now deadline
  let conn := { r.conn with body := body }
  match pull with
  | .chunk bytes => .arrived { r with conn := { conn with pending := bytes }, deadline := none }
  | .failed f => .failed f conn
  | .ended => .failed (.shortRead conn.stop conn.cursor) conn
  | .late => .failed (.idleTimeout idle) conn
  | .pending wake => .waits { r with conn := conn, deadline := some deadline } wake

theorem received_consume (r : Reading) :
    r.consume.conn.cursor + r.consume.conn.pending.length =
      r.conn.cursor + r.conn.pending.length := by
  simp only [consume, taken, dropped, List.length_take, List.length_drop]
  omega

theorem copied_consume (r : Reading) : r.consume.bytes = r.bytes ++ r.taken := by
  simp only [bytes, consume]
  split
  · rename_i h
    simp [List.isEmpty_iff.1 h]
  · simp

end Reading

end RemoteFile
