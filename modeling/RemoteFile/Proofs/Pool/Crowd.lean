import RemoteFile.Pool.Read
import RemoteFile.Proofs.Fetch.Move
import RemoteFile.Proofs.Operation.Turn

/-!
# Crowds of reads through a pool

Any number of reads through one pool, each of which joins, takes its turns and is dropped whenever
it likes, while time passes, the pool is closed, and the transport changes by itself.

The reads of an open file are much the same: what happens to a file besides them is what may happen
to a pool, up to the flags of the file. Whatever is true of every crowd around a pool, which is what
`Crowd.Rules.Pooling` stands for, is true of both.

Main statements:

* `PoolRead.acting` : a read calls the transport and touches connections by its attempts only.
* `PoolRead.attempting` : so does it touch the pool.
* `PoolRead.pooling` : reads through a pool are a crowd around a pool.
-/

namespace RemoteFile

/-- Does the event tell of the counters of a file that is closed? -/
def Event.ofStatistics : Event → Bool
  | .notice (.statistics _ _) => true
  | _ => false

/-- To the pool both worlds are the same; the flags of the file may differ, and its counters may be
written to the log. -/
structure World.Alike {σ : Type} (w w' : World σ) : Prop where
  /-- The transport. -/
  net : w'.net = w.net
  /-- The pool. -/
  pool : w'.pool = w.pool
  /-- The counters. -/
  counters : w'.counters = w.counters
  /-- The journal. -/
  tells : w.Tells Event.ofStatistics w'

/-- What is asked of a pool or of a file: at most `len` bytes at `offset`. -/
structure Wanted where
  /-- Where to read. -/
  offset : Nat
  /-- How much to read at most. -/
  len : Nat
deriving DecidableEq, Repr

namespace PoolRead

variable {σ τ : Type} {s : Setting σ τ} {shift : σ → σ → Prop}

/-- The attempt that a read is making. -/
def attempt? (p : PoolRead τ) : Option (Fetch τ) := p.operation.attempt?

/-- What happens to a pool besides its reads. -/
inductive Outside (s : Setting σ τ) (shift : σ → σ → Prop) : World σ → World σ → Prop
  /-- Time passes. -/
  | pass (millis : Nat) (w : World σ) : Outside s shift w (w.pass millis)
  /-- The pool is closed. -/
  | close (w : World σ) : Outside s shift w (w.closePool s)
  /-- The transport changes by itself. -/
  | shift {net : σ} (w : World σ) (h : shift w.net net) : Outside s shift w { w with net := net }

/-- Reads through a pool, with a transport that may change from one state to another one by itself
as `shift` says. -/
def rules (s : Setting σ τ) (shift : σ → σ → Prop) :
    Crowd.Rules (World σ) Wanted (PoolRead τ) (Except Failure (List UInt8)) :=
  ⟨actor s, fun k => start k.offset k.len, Outside s shift⟩

theorem next?_step {p : PoolRead τ} {w w' : World σ}
    {t : Turn (PoolRead τ) (Except Failure (List UInt8))} (h : p.step s w = (t, w')) :
    ∃ ot, p.operation.step s (Fetch.attempts s p.offset p.len) w = (ot, w') ∧
      t.next? = ot.next?.map (fun o => { p with operation := o }) ∧
      ∀ b, t = .done b ↔ ot = .done b := by
  unfold step at h
  split at h <;> rename_i hstep <;> cases h <;> exact ⟨_, hstep, rfl, by simp⟩

theorem acts_step {p : PoolRead τ} {w w' : World σ}
    {t : Turn (PoolRead τ) (Except Failure (List UInt8))} (h : p.step s w = (t, w')) :
    Fetch.Acts s w p.attempt? w' (t.next?.bind attempt?) := by
  obtain ⟨ot, hstep, hnext, -⟩ := next?_step h
  have hbind : t.next?.bind attempt? = ot.next?.bind Operation.attempt? := by
    rw [hnext]
    cases ot.next? <;> rfl
  rw [hbind]
  exact ⟨p.offset, p.len, Operation.acts hstep⟩

theorem acts_drop (s : Setting σ τ) (p : PoolRead τ) (w : World σ) :
    Fetch.Acts s w p.attempt? (p.drop s w) none :=
  ⟨p.offset, p.len, Operation.acts_drop _ p.operation w⟩

/-- A read calls the transport and touches connections by its attempts only. -/
theorem acting : (rules s shift).Acting s attempt? where
  start _ := rfl
  turn := acts_step
  drop := acts_drop s

/-- A read touches the pool and the transport by its attempts only. -/
theorem attempting : (rules s shift).Attempting s attempt? := acting.attempting

end PoolRead

/-- Every task makes at most one attempt at a time, and what happens besides is what may happen to a
pool. -/
structure Crowd.Rules.Pooling {σ τ κ α β : Type} (m : Crowd.Rules (World σ) κ α β)
    (s : Setting σ τ) (shift : σ → σ → Prop) (fetch? : α → Option (Fetch τ)) : Prop where
  /-- What the tasks do. -/
  acting : m.Acting s fetch?
  /-- What happens besides. -/
  outside : ∀ {w w' : World σ}, m.outside w w' →
    ∃ w₁, PoolRead.Outside s shift w w₁ ∧ w₁.Alike w'

/-- Reads through a pool are a crowd around a pool. -/
theorem PoolRead.pooling {σ τ : Type} {s : Setting σ τ} {shift : σ → σ → Prop} :
    (rules s shift).Pooling s shift attempt? where
  acting := acting
  outside h := ⟨_, h, rfl, rfl, rfl, .refl _ _⟩

end RemoteFile
