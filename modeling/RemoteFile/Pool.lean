import RemoteFile.Connection
import RemoteFile.Options

/-!
# The connection pool

A pool keeps connections that are open and idle, and counts the ones that it has handed out or set
a slot aside for. A read looks for the idle connection that has to skip the least; failing that it
opens a new one, in a free slot or in that of the connection that was idle for the longest; failing
that it waits. Whoever waits remembers how often the pool has called out (`wakes`) and looks again
once it has called out more often.

Main statements:

* `Pool.live_sweep` : closing stale connections frees exactly their slots.
* `leastBy_eq_none_iff` : there is a least entry as soon as one entry has a key.
-/

namespace RemoteFile

/-- The first entry with the least key, by its position and with that key; entries without a key do
not count. -/
def leastBy {α : Type} (key : α → Option Nat) : List α → Option (Nat × Nat)
  | [] => none
  | a :: r =>
    match key a, leastBy key r with
    | none, rest => rest.map fun p => (p.1 + 1, p.2)
    | some k, none => some (0, k)
    | some k, some (i, m) => if k ≤ m then some (0, k) else some (i + 1, m)

/-- Takes out the entry at a position; the last entry moves into its place. -/
def swapRemove {α : Type} (l : List α) (i : Nat) : List α :=
  match l.getLast? with
  | none => []
  | some last => l.dropLast.set i last

/-- The connections to one object. -/
structure Pool where
  /-- Open connections that nobody uses. -/
  idle : List Connection
  /-- How many connections there are: idle, in use, or about to be opened. -/
  live : Nat
  /-- No connection is handed out any more. -/
  closed : Bool
  /-- How often the pool has called out to those who wait. -/
  wakes : Nat
  /-- The number of the next connection. -/
  nextId : Nat
deriving DecidableEq, Repr

/-- What a read gets that looks for a connection. -/
inductive Choice where
  /-- An idle connection that has to skip so many bytes. -/
  | reuse (c : Connection) (skip : Nat)
  /-- A slot for a new connection. -/
  | reserve
  /-- The slot of an idle connection, which has to be closed first. -/
  | replace (evicted : Connection)
  /-- Nothing for now. -/
  | wait
deriving DecidableEq, Repr

namespace Pool

/-- No connections yet. -/
def fresh : Pool := ⟨[], 0, false, 0, 1⟩

/-- Was the connection idle for longer than allowed? -/
def isStale (o : PoolOptions) (now : Nat) (c : Connection) : Bool :=
  o.staleAfter.nanos < (now - c.lastUsed) * Duration.nanosPerMilli

/-- The stale connections among the idle ones. -/
def stale (o : PoolOptions) (now : Nat) (p : Pool) : List Connection :=
  p.idle.filter (isStale o now)

/-- Closes the stale connections, which frees their slots. -/
def sweep (o : PoolOptions) (now : Nat) (p : Pool) : Pool :=
  { p with
    idle := p.idle.filter fun c => !isStale o now c
    live := p.live - (p.stale o now).length }

/-- The idle connection that serves `offset` with the least skip, by its position, and that skip. -/
def best (o : PoolOptions) (offset : Nat) (p : Pool) : Option (Nat × Nat) :=
  leastBy (fun c => c.skipFor offset o.maxSkip) p.idle

/-- The connection that was idle for the longest, by its position. -/
def oldest (p : Pool) : Option (Nat × Nat) := leastBy (fun c => some c.lastUsed) p.idle

/-- Takes the idle connection at a position. -/
def take (p : Pool) (i : Nat) : Option (Connection × Pool) :=
  (p.idle[i]?).map fun c => (c, { p with idle := swapRemove p.idle i })

/-- Sets a slot aside. -/
def reserve (p : Pool) : Pool := { p with live := p.live + 1 }

/-- Finds a connection for `offset` in a pool without stale connections, or a slot to open one
in. -/
def choose (o : PoolOptions) (offset : Nat) (p : Pool) : Choice × Pool :=
  match (p.best o offset).bind fun b => (p.take b.1).map fun t => (t, b.2) with
  | some ((c, rest), skip) => (.reuse c skip, rest)
  | none =>
    if p.live < o.maxConns then (.reserve, p.reserve)
    else
      match p.oldest.bind fun b => p.take b.1 with
      | some (c, rest) => (.replace c, rest)
      | none => (.wait, p)

/-- Calls out to those who wait. -/
def wake (p : Pool) : Pool := { p with wakes := p.wakes + 1 }

/-- Frees the slot of a connection that is gone. -/
def release (p : Pool) : Pool := { p with live := p.live - 1 }

/-- Puts a connection back for the next read. -/
def putBack (p : Pool) (c : Connection) : Pool := { p with idle := p.idle ++ [c] }

/-- Numbers a connection. -/
def number (p : Pool) : Nat × Pool := (p.nextId, { p with nextId := p.nextId + 1 })

/-- Closes all idle connections and hands out no more. -/
def close (p : Pool) : Pool :=
  { p with idle := [], live := p.live - p.idle.length, closed := true }

end Pool

theorem leastBy_eq_none_iff {α : Type} {key : α → Option Nat} {l : List α} :
    leastBy key l = none ↔ ∀ a ∈ l, key a = none := by
  induction l with
  | nil => simp [leastBy]
  | cons a r ih =>
    simp only [leastBy, List.mem_cons, forall_eq_or_imp, ← ih]
    cases h : key a with
    | none => simp
    | some k =>
      cases h' : leastBy key r with
      | none => simp
      | some p =>
        simp only [reduceCtorEq, false_and, iff_false]
        split <;> simp

theorem Pool.live_sweep (o : PoolOptions) (now : Nat) (p : Pool) (h : p.idle.length ≤ p.live) :
    (p.sweep o now).live + p.idle.length = p.live + (p.sweep o now).idle.length := by
  have hl : ∀ l : List Connection,
      (l.filter (isStale o now)).length + (l.filter fun c => !isStale o now c).length =
        l.length := by
    intro l
    induction l with
    | nil => rfl
    | cons c r ih => cases hc : isStale o now c <;> simp [hc] <;> omega
  have := hl p.idle
  simp only [sweep, stale]
  omega

end RemoteFile
