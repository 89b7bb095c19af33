import RemoteFile.Proofs.Connection.Account
import RemoteFile.Proofs.Transport.Supply

/-!
# Reads on a supplied connection

A connection is supplied if its response is in time for all bytes up to its end. A read on such a
connection never fails, and leaves it supplied for the next one: whatever has arrived and is not
wanted yet stays pending.

Main statement:

* `Reading.Supplied.step` : a read on a supplied connection goes on or succeeds.
-/

namespace RemoteFile

/-- What is pending and what still arrives in time reaches to the end of the connection. -/
def Connection.Supplied (idle : Duration) (now : Nat) (deadline : Option Nat) (c : Connection) :
    Prop :=
  ∃ wanted, c.stop ≤ c.cursor + c.pending.length + wanted ∧
    Listener.InTime idle ⟨c.body, now, deadline, wanted⟩

namespace Connection.Supplied

variable {idle : Duration} {now now' : Nat} {deadline : Option Nat} {c : Connection}

theorem opened {id start stop : Nat} {body : Body} (used : Nat)
    (h : Listener.InTime idle ⟨body, now, none, stop - start⟩) :
    (Connection.opened id start stop body used).Supplied idle now none := by
  refine ⟨stop - start, ?_, h⟩
  change stop ≤ start + 0 + (stop - start)
  omega

theorem later (h : c.Supplied idle now deadline) (hnow : now ≤ now') :
    c.Supplied idle now' deadline := by
  obtain ⟨wanted, hreach, htime⟩ := h
  exact ⟨wanted, hreach, htime.later hnow⟩

theorem touch (h : c.Supplied idle now deadline) (used : Nat) :
    (c.touch used).Supplied idle now deadline := h

end Connection.Supplied

namespace Reading

variable {σ : Type} {idle : Duration} {offset len now : Nat} {r : Reading} {w w' : World σ}
  {t : Turn Reading (Except Failure (List UInt8) × Connection)} {c : Connection}

/-- A read on a supplied connection. -/
structure Supplied (idle : Duration) (now : Nat) (r : Reading) : Prop where
  /-- The connection is supplied. -/
  conn : r.conn.Supplied idle now r.deadline
  /-- Who waits for a chunk is not done with what is there. -/
  waits : r.deadline ≠ none → r.consume.isComplete = false

namespace Supplied

theorem begun (h : c.Supplied idle now none) :
    (Reading.begun c offset len).Supplied idle now where
  conn := h
  waits hne := absurd rfl hne

theorem later {now' : Nat} (h : r.Supplied idle now) (hnow : now ≤ now') :
    r.Supplied idle now' :=
  ⟨h.conn.later hnow, h.waits⟩

theorem consume (h : r.Supplied idle now) : r.consume.conn.Supplied idle now r.deadline := by
  obtain ⟨wanted, hreach, htime⟩ := h.conn
  have hreceived := r.received_consume
  refine ⟨wanted, ?_, htime⟩
  change r.conn.stop ≤ _
  omega

end Supplied

/-- A turn that leaves a connection supplied: the read goes on or succeeds. -/
inductive Supplies (idle : Duration) (now : Nat) :
    Turn Reading (Except Failure (List UInt8) × Connection) → Prop
  /-- The read goes on at once. -/
  | moves {r : Reading} (h : r.Supplied idle now) : Supplies idle now (.moved r)
  /-- The read waits. -/
  | waits {r : Reading} (wake : Option Nat) (h : r.Supplied idle now) :
      Supplies idle now (.waits r wake)
  /-- The read succeeds. -/
  | ends {c : Connection} (bytes : List UInt8) (h : c.Supplied idle now none) :
      Supplies idle now (.done (.ok bytes, c))

theorem Supplies.next {r' : Reading} (h : Supplies idle now t) (ht : t.next? = some r') :
    r'.Supplied idle now := by
  cases h with
  | moves h | waits _ h =>
    cases ht
    exact h
  | ends => cases ht

theorem Placed.cursor_lt (hp : r.Placed offset len) (hstop : offset < r.conn.stop)
    (hc : r.isComplete = false) : r.conn.cursor < r.conn.stop := by
  have hplace := hp.place
  have hleft := hp.left
  simp only [isComplete, Bool.and_eq_false_iff, beq_eq_false_iff_ne] at hc
  rcases hc with hc | hc
  · -- it is still on its way to the position
    rw [hp.ahead hc, List.length_nil, Nat.add_zero] at hplace
    omega
  · omega

theorem isComplete_consume_of_pending (hpending : r.conn.pending = []) (hc : r.isComplete = false) :
    r.consume.isComplete = false := by
  simpa [isComplete, Reading.consume, dropped, taken, hpending] using hc

/-- **A read on a supplied connection goes on or succeeds**, and leaves the connection supplied. -/
theorem Supplied.step (h : r.Supplied idle w.now) (hp : r.Placed offset len)
    (hstop : offset < r.conn.stop) (hr : r.step idle w = (t, w')) : Supplies idle w.now t := by
  simp only [Reading.step, now_noteSkip] at hr
  cases hc : r.consume.isComplete with
  | true =>
    have hnone : r.deadline = none := by
      by_contra hne
      exact Bool.false_ne_true ((h.waits hne).symm.trans hc)
    rw [hc, if_pos rfl] at hr
    cases hr
    exact .ends _ (hnone ▸ h.consume.touch _)
  | false =>
    rw [hc, if_neg Bool.false_ne_true] at hr
    obtain ⟨wanted, hreach, htime⟩ := h.consume
    have hpending := pending_of_not_isComplete hc
    have hcursor := hp.consume.cursor_lt hstop hc
    have hstop' : r.consume.conn.stop = r.conn.stop := rfl
    rw [hpending, List.length_nil] at hreach
    have hgoes := htime.goesOn (by dsimp only; omega) (Nat.le_refl w.now)
    rcases hpull : r.consume.conn.body.pull w.now (r.deadline.getD (idle.timerFrom w.now))
      with ⟨pull, body⟩
    have hlimit : r.consume.deadline = r.deadline := rfl
    simp only [Listener.limit, hpull] at hgoes
    simp only [receive, hlimit, hpull] at hr
    cases pull with
    | chunk bytes =>
      cases hr
      refine .moves ⟨⟨wanted - bytes.length, ?_, htime.next (.chunk (Nat.le_refl _) hpull)⟩,
        fun hne => absurd rfl hne⟩
      change r.consume.conn.stop ≤ r.consume.conn.cursor + bytes.length + (wanted - bytes.length)
      omega
    | pending wake =>
      cases hr
      refine .waits _ ⟨⟨wanted, ?_, htime.next (.pending (Nat.le_refl _) hpull)⟩,
        fun _ => isComplete_consume_of_pending hpending hc⟩
      change r.consume.conn.stop ≤ r.consume.conn.cursor + r.consume.conn.pending.length + wanted
      rw [hpending, List.length_nil]
      exact hreach
    | failed | ended | late => cases hgoes

end Reading

end RemoteFile
