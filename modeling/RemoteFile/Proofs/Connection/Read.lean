import RemoteFile.Proofs.Pool.Choice
import RemoteFile.Proofs.World

/-!
# Reading on a connection

How a read on a connection begins, and what its turns leave as it is.

Main statements:

* `Reading.start_of_skipFor` : a connection that can serve a position can be read there.
* `Reading.beside_step` : reading on a connection leaves the pool and the transport as they are.
-/

namespace RemoteFile

namespace Reading

variable {σ : Type} {c : Connection} {offset len : Nat}

/-- The read at `offset` on a connection that can get there. -/
def begun (c : Connection) (offset len : Nat) : Reading :=
  { conn := c, skip := offset - c.cursor, ahead := offset - c.cursor
    left := min len (c.stop - offset), copied := [], deadline := none }

theorem start_eq_ok_iff {r : Reading} :
    start c offset len = .ok r ↔
      c.cursor ≤ offset ∧ offset < c.stop ∧ r = begun c offset len := by
  simp only [start, begun, Bool.or_eq_true, decide_eq_true_eq]
  split
  · simp only [reduceCtorEq, false_iff]
    omega
  · rename_i h
    simp only [not_or, Nat.not_lt, Nat.not_le] at h
    simp only [Except.ok.injEq, h.1, h.2, true_and]
    exact eq_comm

theorem start_of_skipFor {maxSkip n : Nat} (h : c.skipFor offset maxSkip = some n) :
    start c offset len = .ok (begun c offset len) :=
  have hs := Pool.skipFor_eq_some_iff.1 h
  start_eq_ok_iff.2 ⟨hs.1, hs.2.1, rfl⟩

theorem beside_noteSkip (r : Reading) (w : World σ) : w.Beside (r.noteSkip w) := by
  simp only [noteSkip]
  split
  · exact ((World.Beside.refl w).count (f := (·.discarded r.dropped)) fun _ => rfl).note _
  · exact (World.Beside.refl w).count fun _ => rfl

/-- Reading on a connection leaves the pool and the transport as they are. -/
theorem beside_step {idle : Duration} {r : Reading} {w w' : World σ}
    {t : Turn Reading (Except Failure (List UInt8) × Connection)}
    (h : r.step idle w = (t, w')) : w.Beside w' := by
  simp only [step] at h
  split at h
  · cases h
    exact beside_noteSkip r w
  · split at h <;> cases h <;> exact beside_noteSkip r w

end Reading

end RemoteFile
