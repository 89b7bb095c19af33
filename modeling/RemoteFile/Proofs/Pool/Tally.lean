import RemoteFile.Proofs.Connection.Supply
import RemoteFile.Proofs.Fetch.Spans

/-!
# Tallies of a pool

A tally says which connections are idle and how far each of them has come, how many slots are in use
besides, and what was counted so far, none of it an eviction. It is kept by whatever is done
besides, and follows what a read does with the pool: it takes a connection out or asks for a new
one, reads on it, and gives it back.

Main statements:

* `World.Holds.take`, `World.Holds.request`, `World.Holds.collect` : a read gets a connection.
* `World.Holds.read` : a read drops bytes.
* `World.Holds.giveBack` : a connection that is given back is idle, or gone if it is spent.
-/

namespace RemoteFile

/-- What is in a pool, and what was counted. -/
structure Tally where
  /-- The idle connections, each by its number and with its cursor. -/
  berths : List (Nat × Nat)
  /-- How many slots are in use besides. -/
  held : Nat
  /-- The number of the next connection. -/
  nextId : Nat
  /-- How many connections were opened. -/
  opened : Nat
  /-- How often an idle one was used again. -/
  reused : Nat
  /-- How many bytes were dropped. -/
  dropped : Nat

/-- A connection is given back: it is idle unless it has come to the end of the object. -/
def Tally.returned (size n cursor : Nat) (a : Tally) : Tally :=
  { a with
    berths := if cursor < size then (n, cursor) :: a.berths else a.berths
    held := a.held - 1 }

theorem Pool.sweep_of_stale_eq_nil {o : PoolOptions} {now : Nat} {p : Pool}
    (h : p.stale o now = []) : p.sweep o now = p := by
  have hidle : (p.idle.filter fun c => !isStale o now c) = p.idle := by
    refine List.filter_eq_self.2 fun c hc => ?_
    rw [Bool.not_eq_true', Bool.eq_false_iff]
    exact List.filter_eq_nil_iff.1 h c hc
  rw [sweep, hidle, h]
  rfl

namespace World

variable {σ τ : Type}

theorem sweep_of_stale_eq_nil {s : Setting σ τ} {w : World σ}
    (h : w.pool.stale s.options.pool w.now = []) : w.sweep s = w := by
  rw [sweep_eq, h, Pool.sweep_of_stale_eq_nil h]
  rfl

/-- A world that reads can go on in, of which a tally is true. All idle connections reach to the end
of the object and are supplied up to there. -/
structure Holds (s : Setting σ τ) (w : World σ) (a : Tally) : Prop where
  /-- The pool is open. -/
  served : w.pool.closed = false
  /-- The file is open. -/
  opens : w.closed = false
  /-- Reads are not called off. -/
  wanted : w.cancelled = false
  /-- These connections are idle. -/
  idle : (w.pool.idle.map fun c => (c.id, c.cursor)).Perm a.berths
  /-- They reach to the end of the object. -/
  stop : ∀ c ∈ w.pool.idle, c.stop = s.size
  /-- They are supplied up to there. -/
  supplied : ∀ c ∈ w.pool.idle, c.Supplied s.options.timeouts.idle w.now none
  /-- No other slots are in use than these. -/
  live : w.pool.live = a.berths.length + a.held
  /-- The next connection has this number. -/
  nextId : w.pool.nextId = a.nextId
  /-- So many connections were opened. -/
  opened : w.counters.connsOpened = a.opened
  /-- So often was one used again. -/
  reused : w.counters.connsReused = a.reused
  /-- None was evicted. -/
  evicted : w.counters.connsEvicted = 0
  /-- So many bytes were dropped. -/
  dropped : w.counters.bytesDiscarded = a.dropped % counterLimit

namespace Holds

variable {s : Setting σ τ} {w w₁ w' : World σ} {a : Tally} {f : Fetch τ} {c : Connection}

theorem beside (h : w.Holds s a) (hw : w.Beside w')
    (hbytes : w'.counters.bytesDiscarded = w.counters.bytesDiscarded) : w'.Holds s a := by
  obtain ⟨hpool, hclosed, hcancelled, hopened, hreused, hevicted⟩ := hw.unread
  exact
    { served := hpool ▸ h.served
      opens := hclosed.trans h.opens
      wanted := hcancelled.trans h.wanted
      idle := hpool ▸ h.idle
      stop := hpool ▸ h.stop
      supplied := hw.now ▸ hpool ▸ h.supplied
      live := hpool ▸ h.live
      nextId := hpool ▸ h.nextId
      opened := hopened.trans h.opened
      reused := hreused.trans h.reused
      evicted := hevicted.trans h.evicted
      dropped := hbytes.trans h.dropped }

theorem pass (h : w.Holds s a) (millis : Nat) : (w.pass millis).Holds s a :=
  { h with supplied := fun c hc => (h.supplied c hc).later (Nat.le_add_right _ _) }

theorem shifted (h : w.Holds s a) (net : σ) : Holds s { w with net := net } a := { h with }

/-- A read takes an idle connection. -/
theorem take {rest : List Connection} {berths : List (Nat × Nat)} (h : w.Holds s a)
    (hidle : w.pool.idle.Perm (c :: rest)) (hc : a.berths.Perm ((c.id, c.cursor) :: berths))
    (n : Notice) :
    Holds s (((w.manage fun _ => { w.pool with idle := rest }).count Counters.reused).note n)
      { a with berths := berths, held := a.held + 1, reused := a.reused + 1 } := by
  have hrest : ∀ d ∈ rest, d ∈ w.pool.idle :=
    fun d hd => hidle.mem_iff.2 (List.mem_cons_of_mem _ hd)
  have hberths := ((hidle.map fun c => (c.id, c.cursor)).symm.trans h.idle).trans hc
  have hlength := hc.length_eq
  have hlive := h.live
  rw [List.length_cons] at hlength
  exact
    { h with
      idle := List.Perm.cons_inv hberths
      stop := fun d hd => h.stop d (hrest d hd)
      supplied := fun d hd => h.supplied d (hrest d hd)
      live := by
        change w.pool.live = berths.length + (a.held + 1)
        omega
      reused := congrArg (· + 1) h.reused }

/-- A read asks for a connection, in a slot of its own. -/
theorem request {t : Turn (Fetch τ) (Except Failure (List UInt8))} (h : w.Holds s a)
    (hr : f.request s ((w.manage fun _ => w.pool.reserve).count (·.lived w.pool.reserve.live)) =
      (t, w')) :
    w'.Holds s { a with held := a.held + 1, nextId := a.nextId + 1 } := by
  simp only [Fetch.request, issue_eq] at hr
  cases hr
  exact
    { h with
      live := congrArg (· + 1) h.live
      nextId := congrArg (· + 1) h.nextId }

/-- The connection is there. -/
theorem collect {ticket : τ} {answer : Except Failure Body} (h : w.Holds s a)
    (hcol : w.collect s ticket = (answer, w₁)) (n : Notice) :
    ((w₁.count Counters.opened).note n).Holds s { a with opened := a.opened + 1 } := by
  rw [collect_eq] at hcol
  cases hcol
  exact { h with opened := congrArg (· + 1) h.opened }

/-- A read drops bytes. -/
theorem read {r : Reading} {t : Turn Reading (Except Failure (List UInt8) × Connection)}
    (h : w.Holds s a) (hr : r.step s.options.timeouts.idle w = (t, w')) :
    w'.Holds s { a with dropped := a.dropped + r.dropped } := by
  have hdiscarded := Reading.discarded_step s.options.timeouts.idle r w
  have hbeside := Reading.beside_step hr
  rw [hr] at hdiscarded
  -- a world that differs in the count of dropped bytes only
  have hcounted : Holds s (w.count (·.discarded r.dropped))
      { a with dropped := a.dropped + r.dropped } :=
    { h with
      dropped := by
        change (w.counters.bytesDiscarded + r.dropped) % counterLimit = _
        rw [h.dropped, Nat.mod_add_mod] }
  refine hcounted.beside ⟨hbeside.now, hbeside.net, hbeside.pool, hbeside.closed,
    hbeside.cancelled, ?_⟩ hdiscarded
  exact hbeside.counters

/-- **A connection that is given back is idle**, or gone if it is spent. -/
theorem giveBack (h : w.Holds s a) (hheld : 0 < a.held) (hstop : c.stop = s.size)
    (hc : c.Supplied s.options.timeouts.idle w.now none) :
    (w.giveBack s c).Holds s (a.returned s.size c.id c.cursor) := by
  have hlive := h.live
  rcases w.giveBack_eq s c with ⟨heq, hspent⟩ | ⟨heq, hleft, -⟩ <;> rw [heq]
  · have hend : ¬ c.cursor < s.size := by
      rcases hspent with hspent | hclosed
      · rw [Connection.isSpent, decide_eq_true_iff, hstop] at hspent
        exact Nat.not_lt_of_le hspent
      · cases hclosed.symm.trans h.served
    rw [Tally.returned, if_neg hend]
    exact
      { h with
        live := by
          change w.pool.live - 1 = a.berths.length + (a.held - 1)
          omega }
  · have hlt : c.cursor < s.size := by
      rw [Connection.isSpent, decide_eq_false_iff_not, hstop] at hleft
      exact Nat.lt_of_not_le hleft
    have hmem : ∀ {P : Connection → Prop}, (∀ d ∈ w.pool.idle, P d) → P (c.touch w.now) →
        ∀ d ∈ w.pool.idle ++ [c.touch w.now], P d := by
      intro P hidle hback d hd
      rcases List.mem_append.1 hd with hd | hd
      · exact hidle d hd
      · rw [List.mem_singleton.1 hd]
        exact hback
    rw [Tally.returned, if_pos hlt]
    exact
      { h with
        idle := by
          change ((w.pool.idle ++ [c.touch w.now]).map _).Perm _
          rw [List.map_append]
          exact (List.perm_append_singleton _ _).trans (h.idle.cons _)
        stop := hmem h.stop hstop
        supplied := hmem h.supplied (hc.touch _)
        live := by
          change w.pool.live = (a.berths.length + 1) + (a.held - 1)
          omega }

end Holds

end World

end RemoteFile
