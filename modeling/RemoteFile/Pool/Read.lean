import RemoteFile.Fetch

/-!
# Reads through the pool

A read at a position through the pool, with its retries. It ends at the end of its connection at
the latest, and so may be shorter than wanted.
-/

namespace RemoteFile

/-- A read through the pool that is under way. -/
structure PoolRead (τ : Type) where
  /-- Where to read. -/
  offset : Nat
  /-- How much to read at most. -/
  len : Nat
  /-- The attempts. -/
  operation : Operation (Fetch τ)

namespace PoolRead

variable {σ τ : Type}

/-- A read that is about to begin. -/
def start (offset len : Nat) : PoolRead τ := ⟨offset, len, Operation.fresh⟩

/-- One turn of a read. -/
def step (s : Setting σ τ) (p : PoolRead τ) (w : World σ) :
    Turn (PoolRead τ) (Except Failure (List UInt8)) × World σ :=
  match p.operation.step s (Fetch.attempts s p.offset p.len) w with
  | (.moved o, w) => (.moved { p with operation := o }, w)
  | (.waits o wake, w) => (.waits { p with operation := o } wake, w)
  | (.done r, w) => (.done r, w)

/-- Drops a read. -/
def drop (s : Setting σ τ) (p : PoolRead τ) (w : World σ) : World σ :=
  p.operation.drop (Fetch.attempts s p.offset p.len) w

/-- Reads through the pool as tasks. -/
def actor (s : Setting σ τ) : Actor (World σ) (PoolRead τ) (Except Failure (List UInt8)) :=
  ⟨step s, drop s⟩

end PoolRead

end RemoteFile
