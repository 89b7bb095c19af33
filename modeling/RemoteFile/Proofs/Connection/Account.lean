import RemoteFile.Proofs.Connection.Stream
import RemoteFile.Proofs.Pool.Custody

/-!
# What a turn of a read adds up to

In every turn of a read the cursor of its connection moves by the bytes that are dropped and the
bytes that are copied, also where the turn ends in failure. What is copied is kept until the read
ends, and a read that succeeds has copied as many bytes as were wanted, unless its connection ends
before.

Main statements:

* `Reading.cursor_step` : the cursor moves by what is dropped and what is copied.
* `Reading.Placed.step` : the counts of a read are right as long as it goes on.
* `Reading.Placed.done` : how many bytes a read yields.
-/

namespace RemoteFile

namespace Reading

variable {σ : Type} {idle : Duration} {offset len : Nat} {r r' : Reading} {w w' : World σ}
  {t : Turn Reading (Except Failure (List UInt8) × Connection)} {c : Connection}

/-- The connection as a turn leaves it. -/
def connAfter : Turn Reading (Except Failure (List UInt8) × Connection) → Connection
  | .moved r | .waits r _ => r.conn
  | .done (_, c) => c

/-- **The cursor moves by what is dropped and what is copied.** -/
theorem cursor_step (h : r.step idle w = (t, w')) :
    (connAfter t).cursor = r.conn.cursor + r.dropped + r.taken.length := by
  have hgoes := step_goes idle r w
  rw [h] at hgoes
  cases hgoes <;> rfl

theorem id_step (h : r.step idle w = (t, w')) : (connAfter t).id = r.conn.id := by
  have hgoes := step_goes idle r w
  rw [h] at hgoes
  cases hgoes <;> rfl

theorem ahead_step (h : r.step idle w = (t, w')) (ht : t.next? = some r') :
    r.dropped + r'.ahead = r.ahead := by
  have hahead : r'.ahead = r.ahead - r.dropped := by
    have hgoes := step_goes idle r w
    rw [h] at hgoes
    cases hgoes with
    | complete | broken | ended | late => cases ht
    | arrived | waits =>
      cases ht
      rfl
  rw [hahead, Nat.add_sub_cancel' r.dropped_le]

theorem ahead_done {bytes : List UInt8} (h : r.step idle w = (.done (.ok bytes, c), w')) :
    r.dropped = r.ahead := by
  have hgoes := step_goes idle r w
  rw [h] at hgoes
  cases hgoes with
  | complete hc =>
    simp only [isComplete, Bool.and_eq_true, beq_iff_eq] at hc
    exact Nat.le_antisymm r.dropped_le (Nat.le_of_sub_eq_zero hc.1)

theorem bytes_step (h : r.step idle w = (t, w')) (ht : t.next? = some r') :
    r'.bytes = r.bytes ++ r.taken := by
  rw [← copied_consume]
  have hgoes := step_goes idle r w
  rw [h] at hgoes
  cases hgoes with
  | complete | broken | ended | late => cases ht
  | arrived | waits =>
    cases ht
    rfl

theorem bytes_done {bytes : List UInt8} (h : r.step idle w = (.done (.ok bytes, c), w')) :
    bytes = r.bytes ++ r.taken := by
  rw [← copied_consume]
  have hgoes := step_goes idle r w
  rw [h] at hgoes
  cases hgoes
  rfl

namespace Placed

/-- The counts of a read are right as long as it goes on. -/
theorem step (hp : r.Placed offset len) (h : r.step idle w = (t, w')) (ht : t.next? = some r') :
    r'.Placed offset len := by
  have hgoes := step_goes idle r w
  rw [h] at hgoes
  cases hgoes with
  | complete | broken | ended | late => cases ht
  | arrived | waits =>
    cases ht
    exact ⟨hp.consume.place, hp.consume.ahead, hp.consume.left⟩

/-- **How many bytes a read yields**: as many as were wanted, unless its connection ends before. The
cursor stands after them. -/
theorem done {bytes : List UInt8} (hp : r.Placed offset len)
    (h : r.step idle w = (.done (.ok bytes, c), w')) :
    bytes.length = min len (r.conn.stop - offset) ∧ c.cursor = offset + bytes.length := by
  have hgoes := step_goes idle r w
  rw [h] at hgoes
  cases hgoes with
  | complete hc =>
    have hplace := hp.consume.place
    have hleft := hp.consume.left
    simp only [isComplete, Bool.and_eq_true, beq_iff_eq] at hc
    rw [hc.1, Nat.add_zero] at hplace
    rw [hc.2, Nat.add_zero] at hleft
    exact ⟨hleft, hplace⟩

end Placed

end Reading

end RemoteFile
