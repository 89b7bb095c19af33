import RemoteFile.File
import RemoteFile.Pool.Read

/-!
# Reading a file

A read at a position goes on until all wanted bytes are there or the object ends. It is stitched
together from reads through the pool, each of which stops at the end of its connection at the
latest. Before every turn it looks whether reads were called off.
-/

namespace RemoteFile

/-- Where a read stands. -/
inductive FileRead.Phase (τ : Type) where
  /-- About to begin. -/
  | starting
  /-- Some pieces are there, the latest first, so many bytes in all; the next is on its way. -/
  | filling (pieces : List (List UInt8)) (filled : Nat) (next : PoolRead τ)

/-- A read that is under way. -/
structure FileRead (τ : Type) where
  /-- Where to read. -/
  offset : Nat
  /-- How many bytes are wanted. -/
  len : Nat
  /-- Where it stands. -/
  phase : FileRead.Phase τ

namespace FileRead

variable {σ τ : Type}

/-- A read that is about to begin. -/
def start (offset len : Nat) : FileRead τ := ⟨offset, len, .starting⟩

/-- What a turn of a read leads to. -/
abbrev Outcome (σ τ : Type) := Turn (FileRead τ) (Except Failure (List UInt8)) × World σ

/-- How many bytes there are for a read at `offset`. -/
def available (size offset len : Nat) : Nat := min len (size - offset)

/-- Begins a read. -/
def begin (s : Setting σ τ) (r : FileRead τ) (w : World σ) : Outcome σ τ :=
  if w.closed then (.done (.error .closed), w)
  else if s.size < r.offset then (.done (.error (.outOfRange r.offset s.size)), w)
  else if available s.size r.offset r.len = 0 then (.done (.ok []), w)
  else
    let want := available s.size r.offset r.len
    (.moved ⟨r.offset, want, .filling [] 0 (PoolRead.start r.offset want)⟩, w)

/-- Adds what was read through the pool. -/
def extend (r : FileRead τ) (pieces : List (List UInt8)) (filled : Nat) (bytes : List UInt8)
    (w : World σ) : Outcome σ τ :=
  let n := filled + bytes.length
  if bytes = [] then (.done (.error (.shortRead (r.offset + r.len) (r.offset + filled))), w)
  else if r.len ≤ n then (.done (.ok (bytes :: pieces).reverse.flatten), w.count (·.served n))
  else
    let next := PoolRead.start (r.offset + n) (r.len - n)
    (.moved { r with phase := .filling (bytes :: pieces) n next }, w)

/-- Goes on with the read through the pool. -/
def fill (s : Setting σ τ) (r : FileRead τ) (pieces : List (List UInt8)) (filled : Nat)
    (next : PoolRead τ) (w : World σ) : Outcome σ τ :=
  match next.step s w with
  | (.moved p, w) => (.moved { r with phase := .filling pieces filled p }, w)
  | (.waits p wake, w) => (.waits { r with phase := .filling pieces filled p } wake, w)
  | (.done (.error f), w) => (.done (.error f), w)
  | (.done (.ok bytes), w) => r.extend pieces filled bytes w

/-- Drops a read with all that it has begun. -/
def drop (s : Setting σ τ) (r : FileRead τ) (w : World σ) : World σ :=
  match r.phase with
  | .starting => w
  | .filling _ _ next => next.drop s w

/-- One turn of a read. -/
def step (s : Setting σ τ) (r : FileRead τ) (w : World σ) : Outcome σ τ :=
  match r.phase with
  | .starting => r.begin s w
  | .filling pieces filled next =>
    if w.cancelled then
      (.done (.error .cancelled), (r.drop s w).note (.readCancelled r.offset r.len))
    else r.fill s pieces filled next w

/-- Reads as tasks. -/
def actor (s : Setting σ τ) : Actor (World σ) (FileRead τ) (Except Failure (List UInt8)) :=
  ⟨step s, drop s⟩

theorem step_of_cancelled (s : Setting σ τ) (r : FileRead τ) {w : World σ}
    (h : w.cancelled = true) (hr : r.phase ≠ .starting) :
    (step s r w).1 = .done (.error .cancelled) := by
  unfold step
  cases hp : r.phase with
  | starting => exact absurd hp hr
  | filling pieces filled next => simp [h]

end FileRead

end RemoteFile
