import Mathlib.Logic.Function.Iterate
import RemoteFile.Fetch

/-!
# What the operations on a world do

Closed forms of the operations that go through a list: writing notices, closing stale connections,
closing all of them. Whatever else they do, they hang up once for each connection. Then what every
operation does to the pool, to the transport and to the most connections that there ever were.
Operations that touch neither of these are told by `World.Beside`.

Main statements:

* `World.sweep_eq` : sweeping closes the stale connections and counts them as evicted.
* `World.closePool_eq` : closing the pool hangs up on every idle connection.
* `World.giveBack_eq` : a connection that is given back is closed, or idle from then on.
-/

namespace RemoteFile

/-- The counters of requests and of connections. -/
def Counters.ofConns (c : Counters) : Counters :=
  { c with bytesServed := 0, bytesDiscarded := 0, retries := 0, renewals := 0 }

/-- The time, the transport, the pool and what is counted of them are the same in both worlds, and
so is whether the file is closed or reads are called off. -/
structure World.Beside {σ : Type} (w w' : World σ) : Prop where
  /-- The time. -/
  now : w'.now = w.now
  /-- The transport. -/
  net : w'.net = w.net
  /-- The connections. -/
  pool : w'.pool = w.pool
  /-- Whether the file is closed. -/
  closed : w'.closed = w.closed
  /-- Whether reads are called off. -/
  cancelled : w'.cancelled = w.cancelled
  /-- The counters of requests and of connections. -/
  counters : w'.counters.ofConns = w.counters.ofConns

namespace World.Beside

variable {σ τ : Type} {w w₁ : World σ}

theorem refl (w : World σ) : w.Beside w := ⟨rfl, rfl, rfl, rfl, rfl, rfl⟩

theorem trans {w' : World σ} (h : w.Beside w₁) (h' : w₁.Beside w') : w.Beside w' :=
  ⟨h'.now.trans h.now, h'.net.trans h.net, h'.pool.trans h.pool, h'.closed.trans h.closed,
    h'.cancelled.trans h.cancelled, h'.counters.trans h.counters⟩

theorem record (h : w.Beside w₁) (e : Event) : w.Beside (w₁.record e) :=
  ⟨h.now, h.net, h.pool, h.closed, h.cancelled, h.counters⟩

theorem note (h : w.Beside w₁) (n : Notice) : w.Beside (w₁.note n) := h.record _

theorem resolve (h : w.Beside w₁) (f : Resolver → Resolver) : w.Beside (w₁.resolve f) :=
  ⟨h.now, h.net, h.pool, h.closed, h.cancelled, h.counters⟩

theorem count (h : w.Beside w₁) {f : Counters → Counters}
    (hf : ∀ c : Counters, (f c).ofConns = c.ofConns) : w.Beside (w₁.count f) :=
  ⟨h.now, h.net, h.pool, h.closed, h.cancelled, (hf _).trans h.counters⟩

theorem peak (h : w.Beside w₁) : w₁.counters.peakConns = w.counters.peakConns := by
  have hc := h.counters
  simp only [Counters.ofConns, Counters.mk.injEq] at hc
  exact hc.2.2.2.2.2.2.2.1

end World.Beside

namespace World

variable {σ τ : Type}

theorem noteAll_eq (w : World σ) (l : List Notice) :
    w.noteAll l = { w with journal := (l.map Event.notice).reverse ++ w.journal } := by
  induction l generalizing w with
  | nil => rfl
  | cons n l ih =>
    change (w.note n).noteAll l = _
    rw [ih]
    simp [note, record]

theorem issue_eq (s : Setting σ τ) (c : Call) (w : World σ) :
    w.issue s c = ((s.net.send w.now c w.net).1,
      { w with
        net := (s.net.send w.now c w.net).2.1
        journal := ((s.net.send w.now c w.net).2.2.map Event.notice).reverse ++
          .call c :: w.journal }) := by
  simp only [issue, noteAll_eq, record]

theorem collect_eq (s : Setting σ τ) (ticket : τ) (w : World σ) :
    w.collect s ticket = ((s.net.opened ticket w.net).1,
      { w with
        net := (s.net.opened ticket w.net).2.1
        journal := ((s.net.opened ticket w.net).2.2.map Event.notice).reverse ++ w.journal }) := by
  simp only [collect, noteAll_eq]

section

variable {s : Setting σ τ} {ticket : τ} {r : Except Failure Body} {w w₁ : World σ}

theorem pool_of_collect (h : w.collect s ticket = (r, w₁)) : w₁.pool = w.pool := by
  rw [collect_eq] at h
  cases h
  rfl

theorem peak_of_collect (h : w.collect s ticket = (r, w₁)) :
    w₁.counters.peakConns = w.counters.peakConns := by
  rw [collect_eq] at h
  cases h
  rfl

theorem net_of_collect (h : w.collect s ticket = (r, w₁)) :
    ∃ notices, s.net.opened ticket w.net = (r, w₁.net, notices) := by
  rw [collect_eq] at h
  cases h
  exact ⟨_, rfl⟩

end

theorem foldl_hangUp {α : Type} (s : Setting σ τ) (l : List α) (w : World σ) :
    l.foldl (fun w _ => w.hangUp s) w = { w with net := s.net.closed^[l.length] w.net } := by
  induction l generalizing w with
  | nil => rfl
  | cons a l ih =>
    rw [List.foldl_cons, ih]
    rfl

theorem foldl_closeStale (s : Setting σ τ) (l : List Connection) (w : World σ) :
    l.foldl (closeStale s) w =
      { w with
        net := s.net.closed^[l.length] w.net
        counters := w.counters.evicted l.length
        journal := (l.map fun c => Event.notice (.closingStale c.id)).reverse ++ w.journal } := by
  induction l generalizing w with
  | nil => rfl
  | cons c l ih =>
    rw [List.foldl_cons, ih]
    simp only [closeStale, hangUp, note, record, count, Counters.evicted, List.length_cons,
      Function.iterate_succ_apply, List.map_cons, List.reverse_cons, List.append_assoc,
      List.singleton_append, Nat.add_assoc, Nat.add_comm 1]

/-- Sweeping closes the stale connections and counts them as evicted. -/
theorem sweep_eq (s : Setting σ τ) (w : World σ) :
    w.sweep s =
      { w with
        net := s.net.closed^[(w.pool.stale s.options.pool w.now).length] w.net
        pool := w.pool.sweep s.options.pool w.now
        counters := w.counters.evicted (w.pool.stale s.options.pool w.now).length
        journal := ((w.pool.stale s.options.pool w.now).map fun c =>
          Event.notice (.closingStale c.id)).reverse ++ w.journal } := by
  simp only [sweep, foldl_closeStale, manage]

theorem journal_sweep (s : Setting σ τ) (w : World σ) :
    ∃ notices : List Notice, (w.sweep s).journal = notices.map Event.notice ++ w.journal := by
  rw [sweep_eq]
  refine ⟨((w.pool.stale s.options.pool w.now).map fun c => .closingStale c.id).reverse, ?_⟩
  rw [List.map_reverse, List.map_map]
  rfl

/-- Closing the pool hangs up on every idle connection. -/
theorem closePool_eq (s : Setting σ τ) (w : World σ) :
    w.closePool s =
      { w with
        net := s.net.closed^[w.pool.idle.length] w.net
        pool := w.pool.close.wake
        journal := .notice (.poolClosed w.pool.idle.length) :: w.journal } := by
  simp only [closePool, foldl_hangUp, manage, note, record]

/-- A connection that is given back is closed, or idle from then on. -/
theorem giveBack_eq (s : Setting σ τ) (c : Connection) (w : World σ) :
    (w.giveBack s c = w.giveUp s c ∧ (c.isSpent = true ∨ w.pool.closed = true)) ∨
      (w.giveBack s c = w.manage (fun p => (p.putBack (c.touch w.now)).wake) ∧
        c.isSpent = false ∧ w.pool.closed = false) := by
  unfold giveBack
  split
  · rename_i h
    exact .inl ⟨rfl, by simpa using h⟩
  · rename_i h
    exact .inr ⟨rfl, by simpa using h⟩

/-! ### The pool, the transport and the peak after each operation -/

section

variable (s : Setting σ τ) (w : World σ)

@[simp]
theorem pool_note (n : Notice) : (w.note n).pool = w.pool := rfl

@[simp]
theorem pool_count (f : Counters → Counters) : (w.count f).pool = w.pool := rfl

@[simp]
theorem pool_manage (f : Pool → Pool) : (w.manage f).pool = f w.pool := rfl

@[simp]
theorem pool_sweep : (w.sweep s).pool = w.pool.sweep s.options.pool w.now := by
  rw [sweep_eq]

@[simp]
theorem pool_giveUp (c : Connection) : (w.giveUp s c).pool = w.pool.release.wake := rfl

@[simp]
theorem pool_freeSlot : w.freeSlot.pool = w.pool.release.wake := rfl

@[simp]
theorem pool_closePool : (w.closePool s).pool = w.pool.close.wake := by
  rw [closePool_eq]

@[simp]
theorem net_manage (f : Pool → Pool) : (w.manage f).net = w.net := rfl

@[simp]
theorem net_sweep :
    (w.sweep s).net = s.net.closed^[(w.pool.stale s.options.pool w.now).length] w.net := by
  rw [sweep_eq]

@[simp]
theorem net_closePool :
    (w.closePool s).net = s.net.closed^[w.pool.idle.length] w.net := by
  rw [closePool_eq]

@[simp]
theorem peak_sweep : (w.sweep s).counters.peakConns = w.counters.peakConns := by
  rw [sweep_eq]
  rfl

@[simp]
theorem peak_closePool : (w.closePool s).counters.peakConns = w.counters.peakConns := by
  rw [closePool_eq]

end

end World

end RemoteFile
