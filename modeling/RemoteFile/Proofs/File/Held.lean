import RemoteFile.Proofs.File.Opening
import RemoteFile.Proofs.Pool.Custody

/-!
# What an open file holds

An open file is a pool and more: to the pool, its reads are those of the pool, and what happens to
the file besides them is what may happen to a pool, up to the flags of the file. So the connections
of a file are accounted for as those of a pool are.

Main statements:

* `FileRead.pooling` : what happens to a file besides its reads is what may happen to a pool.
* `FileRead.held` : the connections of a file are accounted for.
-/

namespace RemoteFile

/-- The same setting for an object of another size. -/
def Setting.ofSize {σ τ : Type} (s : Setting σ τ) (size : Nat) : Setting σ τ :=
  { s with size := size }

namespace File

variable {σ τ : Type} {w : World σ}

/-- To close a file that is open sets its flags, closes its pool, and may write its counters to the
log. -/
theorem close_of_not_closed (s : Setting σ τ) (info : FileInfo) (h : w.closed = false) :
    (close s info w).closed = true ∧ (close s info w).cancelled = true ∧
      (w.closePool s).Alike (close s info w) := by
  simp only [close, h, cancel, World.closePool_eq, Bool.false_eq_true, if_false]
  split
  · exact ⟨rfl, rfl, rfl, rfl, rfl, (World.Tells.refl _ _).record rfl⟩
  · exact ⟨rfl, rfl, rfl, rfl, rfl, .of_eq rfl⟩

end File

namespace FileRead

variable {σ τ : Type} {s : Setting σ τ} {info : FileInfo} {shift : σ → σ → Prop}

/-- **What happens to a file besides its reads is what may happen to a pool.** -/
theorem Outside.alike {w w' : World σ} (h : Outside s info shift w w') :
    ∃ w₁, PoolRead.Outside s shift w w₁ ∧ w₁.Alike w' := by
  cases h with
  | pass millis => exact ⟨_, .pass millis w, rfl, rfl, rfl, .refl _ _⟩
  | cancel => exact ⟨_, .pass 0 w, rfl, rfl, rfl, .of_eq rfl⟩
  | close =>
    cases hc : w.closed with
    | true =>
      rw [File.close_of_closed s info hc]
      exact ⟨_, .pass 0 w, rfl, rfl, rfl, .of_eq rfl⟩
    | false => exact ⟨_, .close w, (File.close_of_not_closed s info hc).2.2⟩
  | shift _ hs => exact ⟨_, .shift w hs, rfl, rfl, rfl, .refl _ _⟩

/-- The reads of a file, and what happens besides. -/
theorem pooling : (rules s info shift).Pooling s shift attempt? where
  acting := acting
  outside := Outside.alike

/-- The slots that are handed out to the reads of a crowd. -/
def checkouts (c : Crowd (World σ) Wanted (FileRead τ) (Except Failure (List UInt8))) : Nat :=
  Fetch.total Fetch.slots (c.attempts attempt?)

/-- The responses that the reads of a crowd are reading from. -/
def bodies (c : Crowd (World σ) Wanted (FileRead τ) (Except Failure (List UInt8))) : Nat :=
  Fetch.total Fetch.bodies (c.attempts attempt?)

/-- The connections of a file are accounted for: those that are counted are idle or handed out, the
responses that are open are idle or read from, and a closed pool has no idle ones. -/
structure Held (s : Setting σ τ)
    (c : Crowd (World (Metered σ)) Wanted (FileRead τ) (Except Failure (List UInt8))) : Prop where
  /-- The count of connections. -/
  live : c.world.pool.live = c.world.pool.idle.length + checkouts c
  /-- The responses that are open. -/
  alive : c.world.net.alive = c.world.pool.idle.length + bodies c
  /-- A closed pool. -/
  closed : c.world.pool.closed = true → c.world.pool.idle = []

variable {w₀ : World (Metered σ)}
  {c : Crowd (World (Metered σ)) Wanted (FileRead τ) (Except Failure (List UInt8))}

/-- **The connections of a file are accounted for**, from when it is open on. -/
theorem held {s₀ : Setting σ τ} {w₀ : World σ}
    {o : Crowd (World (Metered σ)) Url (Opening τ) (Except Failure FileInfo)}
    (h₀ : w₀.pool = Pool.fresh)
    (ho : Crowd.Reachable (File.rules s₀.metered (Metered.Shift shift)) (Crowd.empty w₀.metered) o)
    (h : Crowd.Reachable (rules s.metered info (Metered.Shift shift)) (Crowd.empty o.world) c) :
    Held s c := by
  obtain ⟨hpool, halive, -⟩ := File.untouched_of_opening ho
  have hfresh : o.world.pool = Pool.fresh := hpool.trans h₀
  exact ⟨(Crowd.accounted pooling h hfresh).live, Crowd.alive_eq pooling h hfresh halive,
    (Crowd.custody pooling h hfresh).closed⟩

end FileRead

end RemoteFile
