import Mathlib.Data.List.Count
import Mathlib.Data.List.Nodup
import RemoteFile.Proofs.Operation.Acts
import RemoteFile.Proofs.Transport.Discreet
import RemoteFile.Proofs.World.Requests

/-!
# Bookkeeping of connections and requests

Every connection that is opened goes somewhere: it is idle, it is read from, or it is closed. Those
that are closed one by one are counted, as evicted or as discarded, and the log tells their numbers;
those that are closed together with the pool are not counted. `World.Settles` says of what happens
between two worlds that it accounts for every connection, every request and every slot that is
handed out. It is proved of each operation on a world, and holds of whatever is made of them.

Main statements:

* `World.Settles.trans` : what settles its accounts step by step settles them altogether.
* `World.settles_sweep`, `World.settles_evict`, `World.settles_giveUp` : each connection that is
  closed is counted once.
* `World.Settles.conserved` : connections are conserved if accounts are settled from the beginning.
-/

namespace RemoteFile

variable {σ τ : Type}

namespace Event

/-- Is the event a call to the transport? -/
def isCall : Event → Bool
  | .call _ => true
  | .notice _ | .renewerCall | .sleep _ | .attempt _ _ => false

theorem unbooked_of_ofArranging {e : Event} (h : e.ofArranging = true) :
    (!e.isCall) = true ∧ (!e.ofClosing) = true := by
  constructor
  · unfold isCall
    split
    · cases h
    all_goals rfl
  · unfold ofClosing
    split
    · cases h
    · cases h
    · cases h
    · rfl

end Event

/-- The counters of requests and of connections that come and go. -/
def Counters.ofBooks (c : Counters) : Counters := { c.ofConns with peakConns := 0 }

/-- What reads have in their hands. -/
structure Hand where
  /-- How many responses they read from. -/
  bodies : Nat
  /-- The numbers of the connections that they open or read on. -/
  ids : List Nat

namespace World

/-- The connections that were counted as evicted, the latest first. -/
def evictions (w : World σ) : List Nat := w.journal.filterMap Event.evicted?

/-- The connections that were counted as discarded, the latest first. -/
def discards (w : World σ) : List Nat := w.journal.filterMap Event.discarded?

/-- The numbers of connections wherever they are: counted, idle or in hand. -/
def places (w : World σ) (h : Hand) : List Nat :=
  w.evictions ++ w.discards ++ (w.pool.idle.map Connection.id ++ h.ids)

/-- What happens between two worlds, and between what reads have in their hands then, accounts for
every connection and every request. Meanwhile so many slots are `handed` out, and so many idle
connections are `shut` together with the pool. What the log tells of connections that are closed
counts only if it is `told` by the pool alone. -/
structure Settles (told : Prop) (w : World σ) (h : Hand) (handed shut : Nat) (w' : World σ)
    (h' : Hand) : Prop where
  /-- Connections that are opened are closed, idle or read from. -/
  conns : w'.counters.connsOpened + w.counters.connsEvicted + w.counters.connsDiscarded +
      w.pool.idle.length + h.bodies =
    w.counters.connsOpened + w'.counters.connsEvicted + w'.counters.connsDiscarded +
      w'.pool.idle.length + h'.bodies + shut
  /-- Calls of the transport are counted. -/
  calls : w'.counters.requests + (Event.calls w.journal).length =
    w.counters.requests + (Event.calls w'.journal).length
  /-- A slot that is handed out comes with a connection, or a range is requested. -/
  handed : w'.counters.connsReused + w'.requests.length =
    w.counters.connsReused + w.requests.length + handed
  /-- The evictions that are counted are told. -/
  evicted : told → w'.counters.connsEvicted + w.evictions.length =
    w.counters.connsEvicted + w'.evictions.length
  /-- So are those that are discarded. -/
  discarded : told → w'.counters.connsDiscarded + w.discards.length =
    w.counters.connsDiscarded + w'.discards.length
  /-- Numbers are not given again. -/
  nextId : w.pool.nextId ≤ w'.pool.nextId
  /-- A connection comes from one place and goes to one place, unless it is new. -/
  places : told → ∀ i, (w'.places h').count i ≤
    (w.places h).count i + if w.pool.nextId ≤ i ∧ i < w'.pool.nextId then 1 else 0

variable {told : Prop} {w w₁ w' : World σ} {h h₁ h' : Hand} {m n y z : Nat}

theorem count_places (w : World σ) (h : Hand) (i : Nat) :
    (w.places h).count i = w.evictions.count i + w.discards.count i +
      ((w.pool.idle.map Connection.id).count i + h.ids.count i) := by
  simp only [places, List.count_append]

namespace Settles

/-- What settles its accounts step by step settles them altogether. -/
theorem trans (hs : w.Settles told h m y w₁ h₁) (hs' : w₁.Settles told h₁ n z w' h') :
    w.Settles told h (m + n) (y + z) w' h' := by
  have hconns := hs.conns
  have hconns' := hs'.conns
  have hcalls := hs.calls
  have hcalls' := hs'.calls
  have hhanded := hs.handed
  have hhanded' := hs'.handed
  have hnext := hs.nextId
  have hnext' := hs'.nextId
  refine ⟨by omega, by omega, by omega, fun ht => ?_, fun ht => ?_, by omega, fun ht i => ?_⟩
  · have hevicted := hs.evicted ht
    have hevicted' := hs'.evicted ht
    omega
  · have hdiscarded := hs.discarded ht
    have hdiscarded' := hs'.discarded ht
    omega
  · -- a number that is new at first is not new later on
    have hi := hs.places ht i
    have hi' := hs'.places ht i
    split at hi <;> split at hi' <;> split <;> omega

theorem frame (hs : w.Settles told h m y w' h') (bodies : Nat) (ids : List Nat) :
    w.Settles told ⟨h.bodies + bodies, h.ids ++ ids⟩ m y w' ⟨h'.bodies + bodies, h'.ids ++ ids⟩ := by
  have hconns := hs.conns
  refine ⟨by dsimp only; omega, hs.calls, hs.handed, hs.evicted, hs.discarded, hs.nextId,
    fun ht i => ?_⟩
  have hi := hs.places ht i
  rw [count_places, count_places] at hi ⊢
  dsimp only
  rw [List.count_append, List.count_append]
  omega

/-- The order of what is in hand does not matter, and a connection that is never opened is let go
unseen. -/
theorem hold (hs : w.Settles told h m y w' h') {k k' : Hand} (hk : h.bodies = k.bodies)
    (hids : ∀ i, h.ids.count i ≤ k.ids.count i) (hk' : k'.bodies = h'.bodies)
    (hids' : ∀ i, k'.ids.count i ≤ h'.ids.count i) : w.Settles told k m y w' k' := by
  refine ⟨by rw [← hk, hk', hs.conns], hs.calls, hs.handed, hs.evicted, hs.discarded, hs.nextId,
    fun ht i => ?_⟩
  have hi := hs.places ht i
  have hle := hids i
  have hle' := hids' i
  rw [count_places, count_places] at hi ⊢
  omega

end Settles

/-! ### What is not in the books -/

/-- No connection comes or goes, and no request is made. -/
structure Unbooked (told : Prop) (w w' : World σ) : Prop where
  /-- The idle connections. -/
  idle : w'.pool.idle = w.pool.idle
  /-- The number of the next connection. -/
  nextId : w'.pool.nextId = w.pool.nextId
  /-- The counters. -/
  counters : w'.counters.ofBooks = w.counters.ofBooks
  /-- The journal tells of no call. -/
  calls : w.Tells (fun e => !e.isCall) w'
  /-- It tells of no connection that is closed. -/
  closings : told → w.Tells (fun e => !e.ofClosing) w'

theorem calls_of_tells (h : w.Tells (fun e => !e.isCall) w') :
    Event.calls w'.journal = Event.calls w.journal ∧ w'.requests = w.requests := by
  refine ⟨h.filterMap_eq fun e he => ?_, h.filterMap_eq fun e he => ?_⟩ <;> cases e with
  | call c => cases he
  | notice n | renewerCall | sleep d | attempt url generation => rfl

theorem closings_of_tells (h : w.Tells (fun e => !e.ofClosing) w') :
    w'.evictions = w.evictions ∧ w'.discards = w.discards := by
  refine ⟨h.filterMap_eq fun e he => ?_, h.filterMap_eq fun e he => ?_⟩
  · exact Event.evicted?_eq_none (Bool.not_eq_true' _ ▸ he)
  · exact Event.discarded?_eq_none (Bool.not_eq_true' _ ▸ he)

theorem Unbooked.settles (hw : w.Unbooked told w') (h : Hand) : w.Settles told h 0 0 w' h := by
  have hcounters := hw.counters
  simp only [Counters.ofBooks, Counters.ofConns, Counters.mk.injEq, true_and, and_true] at hcounters
  obtain ⟨hrequests, hopened, hreused, hevicted, hdiscarded⟩ := hcounters
  obtain ⟨hcalls, hranges⟩ := calls_of_tells hw.calls
  refine ⟨?_, ?_, ?_, fun ht => ?_, fun ht => ?_, Nat.le_of_eq hw.nextId.symm, fun ht i => ?_⟩
  · rw [hopened, hevicted, hdiscarded, hw.idle]
    rfl
  · rw [hrequests, hcalls]
  · rw [hreused, hranges]
    rfl
  · rw [hevicted, (closings_of_tells (hw.closings ht)).1]
  · rw [hdiscarded, (closings_of_tells (hw.closings ht)).2]
  · obtain ⟨hevictions, hdiscards⟩ := closings_of_tells (hw.closings ht)
    rw [count_places, count_places, hevictions, hdiscards, hw.idle]
    exact Nat.le_add_right _ _

theorem Unbooked.of_eq (hpool : w'.pool = w.pool) (hcounters : w'.counters = w.counters)
    (hjournal : w'.journal = w.journal) : w.Unbooked told w' :=
  ⟨congrArg Pool.idle hpool, congrArg Pool.nextId hpool, congrArg Counters.ofBooks hcounters,
    .of_eq hjournal, fun _ => .of_eq hjournal⟩

theorem Unbooked.refl (told : Prop) (w : World σ) : w.Unbooked told w := .of_eq rfl rfl rfl

theorem Unbooked.note (hw : w.Unbooked told w₁) {n : Notice}
    (hn : (Event.notice n).ofClosing = false) : w.Unbooked told (w₁.note n) :=
  ⟨hw.idle, hw.nextId, hw.counters, hw.calls.record rfl,
    fun ht => (hw.closings ht).record (Bool.not_eq_true' _ ▸ hn)⟩

theorem Unbooked.count (hw : w.Unbooked told w₁) {f : Counters → Counters}
    (hf : ∀ c : Counters, (f c).ofBooks = c.ofBooks) : w.Unbooked told (w₁.count f) :=
  ⟨hw.idle, hw.nextId, (hf _).trans hw.counters, hw.calls.trans (.of_eq rfl),
    fun ht => (hw.closings ht).trans (.of_eq rfl)⟩

theorem Unbooked.manage (hw : w.Unbooked told w₁) {f : Pool → Pool}
    (hidle : (f w₁.pool).idle = w₁.pool.idle) (hnext : (f w₁.pool).nextId = w₁.pool.nextId) :
    w.Unbooked told (w₁.manage f) :=
  ⟨hidle.trans hw.idle, hnext.trans hw.nextId, hw.counters, hw.calls.trans (.of_eq rfl),
    fun ht => (hw.closings ht).trans (.of_eq rfl)⟩

theorem settles_of_eq (hpool : w'.pool = w.pool) (hcounters : w'.counters = w.counters)
    (hjournal : w'.journal = w.journal) : w.Settles told h 0 0 w' h :=
  (Unbooked.of_eq hpool hcounters hjournal).settles h

theorem Settles.refl (told : Prop) (w : World σ) (h : Hand) : w.Settles told h 0 0 w h :=
  settles_of_eq rfl rfl rfl

theorem Unbooked.of_tells {p : Event → Bool} (hpool : w'.pool = w.pool)
    (hcounters : w'.counters.ofConns = w.counters.ofConns) (h : w.Tells p w')
    (hp : ∀ e, p e = true → (!e.isCall) = true ∧ (!e.ofClosing) = true) : w.Unbooked told w' where
  idle := congrArg Pool.idle hpool
  nextId := congrArg Pool.nextId hpool
  counters := congrArg (fun c => { c with peakConns := 0 }) hcounters
  calls := h.mono fun e he => (hp e he).1
  closings _ := h.mono fun e he => (hp e he).2

theorem Arranges.unbooked (hw : w.Arranges w') : w.Unbooked told w' :=
  .of_tells hw.beside.pool hw.beside.counters hw.tells fun _ => Event.unbooked_of_ofArranging

theorem unbooked_collect {s : Setting σ τ} {ticket : τ} {r : Except Failure Body}
    (h : w.collect s ticket = (r, w₁)) : w.Unbooked s.net.Discreet w₁ := by
  rw [collect_eq] at h
  cases h
  refine ⟨rfl, rfl, rfl, ⟨_, rfl, fun e he => ?_⟩, fun hd => ⟨_, rfl, fun e he => ?_⟩⟩ <;>
    obtain ⟨n, hn, rfl⟩ := List.mem_map.1 (List.mem_reverse.1 he)
  · rfl
  · exact Bool.not_eq_true' _ ▸ hd.opened ticket w.net n hn

theorem settles_lived (w : World σ) (h : Hand) (n : Nat) :
    w.Settles told h 0 0 (w.count (·.lived n)) h :=
  ((Unbooked.refl told w).count (f := (·.lived n)) fun _ => rfl).settles h

/-! ### What is in the books -/

theorem uncalled_sweep (s : Setting σ τ) (w : World σ) :
    w.Tells (fun e => !e.isCall) (w.sweep s) := by
  obtain ⟨notices, hjournal⟩ := w.journal_sweep s
  refine ⟨_, hjournal, fun e he => ?_⟩
  obtain ⟨n, -, rfl⟩ := List.mem_map.1 he
  rfl

/-- Stale connections are closed and counted. -/
theorem settles_sweep (s : Setting σ τ) (w : World σ) (h : Hand) :
    w.Settles told h 0 0 (w.sweep s) h := by
  have hperm : (w.pool.stale s.options.pool w.now ++
      (w.pool.sweep s.options.pool w.now).idle).Perm w.pool.idle :=
    List.filter_append_perm _ w.pool.idle
  have hlength := hperm.length_eq
  rw [List.length_append] at hlength
  obtain ⟨hcall, hranges⟩ := calls_of_tells (uncalled_sweep s w)
  -- the journal has the latest notice first
  have hevictions : (w.sweep s).evictions =
      ((w.pool.stale s.options.pool w.now).map Connection.id).reverse ++ w.evictions := by
    rw [sweep_eq]
    simp [evictions, ← List.map_reverse, List.filterMap_map, Event.evicted?, Function.comp_def]
  have hdiscards : (w.sweep s).discards = w.discards := by
    rw [sweep_eq]
    simp [discards, ← List.map_reverse, List.filterMap_map, Event.discarded?, Function.comp_def]
  refine ⟨?_, ?_, ?_, fun _ => ?_, fun _ => ?_, ?_, fun _ i => ?_⟩
  · rw [sweep_eq]
    simp only [Counters.evicted]
    omega
  · rw [hcall, sweep_eq]
    rfl
  · rw [hranges, sweep_eq]
    rfl
  · rw [hevictions, sweep_eq]
    simp only [Counters.evicted, List.length_append, List.length_reverse, List.length_map]
    omega
  · rw [hdiscards, sweep_eq]
    rfl
  · rw [pool_sweep]
    exact Nat.le_refl _
  · -- a number that is idle no more is told of now
    have hi := (hperm.map Connection.id).count_eq i
    rw [List.map_append, List.count_append] at hi
    rw [count_places, count_places, hevictions, hdiscards, pool_sweep, List.count_append,
      List.count_reverse]
    omega

theorem settles_take {q : Pool} {c : Connection} (hq : w.pool.idle.Perm (c :: q.idle))
    (hnext : q.nextId = w.pool.nextId) :
    w.Settles told ⟨0, []⟩ 0 0 (w.manage fun _ => q) ⟨1, [c.id]⟩ := by
  have hlength := hq.length_eq
  rw [List.length_cons] at hlength
  refine ⟨?_, rfl, rfl, fun _ => rfl, fun _ => rfl, Nat.le_of_eq hnext.symm, fun _ i => ?_⟩
  · simp only [manage]
    omega
  · have hi := (hq.map Connection.id).count_eq i
    rw [List.map_cons, ← List.singleton_append, List.count_append] at hi
    rw [count_places, count_places]
    simp only [manage, evictions, discards, List.count_nil]
    omega

/-- A connection that is evicted is counted. -/
theorem settles_evict (s : Setting σ τ) (c : Connection) (w : World σ) :
    w.Settles told ⟨1, [c.id]⟩ 0 0 (w.evict s c) ⟨0, []⟩ := by
  refine ⟨?_, rfl, rfl, fun _ => ?_, fun _ => rfl, Nat.le_refl _, fun _ i => ?_⟩
  · simp only [evict, hangUp, note, record, count, Counters.evicted]
    omega
  · change w.counters.connsEvicted + 1 + w.evictions.length =
      w.counters.connsEvicted + (w.evictions.length + 1)
    omega
  · have hi : (w.evict s c).evictions.count i = [c.id].count i + w.evictions.count i := by
      show ([c.id] ++ w.evictions).count i = _
      exact List.count_append
    rw [count_places, count_places, hi]
    change _ + w.discards.count i + ((w.pool.idle.map Connection.id).count i + 0) ≤ _
    dsimp only
    omega

/-- A connection that is closed after use is counted. -/
theorem settles_giveUp (s : Setting σ τ) (c : Connection) (w : World σ) :
    w.Settles told ⟨1, [c.id]⟩ 0 0 (w.giveUp s c) ⟨0, []⟩ := by
  refine ⟨?_, rfl, rfl, fun _ => rfl, fun _ => ?_, Nat.le_refl _, fun _ i => ?_⟩
  · simp only [giveUp, discard, freeSlot, manage, hangUp, note, record, count, Counters.dropped,
      Pool.wake, Pool.release]
    omega
  · change w.counters.connsDiscarded + 1 + w.discards.length =
      w.counters.connsDiscarded + (w.discards.length + 1)
    omega
  · have hi : (w.giveUp s c).discards.count i = [c.id].count i + w.discards.count i := by
      show ([c.id] ++ w.discards).count i = _
      exact List.count_append
    rw [count_places, count_places, hi]
    change w.evictions.count i + _ + ((w.pool.idle.map Connection.id).count i + 0) ≤ _
    dsimp only
    omega

theorem settles_giveBack (s : Setting σ τ) (c : Connection) (w : World σ) :
    w.Settles told ⟨1, [c.id]⟩ 0 0 (w.giveBack s c) ⟨0, []⟩ := by
  rcases w.giveBack_eq s c with ⟨heq, -⟩ | ⟨heq, -⟩ <;> rw [heq]
  · exact settles_giveUp s c w
  · refine ⟨?_, rfl, rfl, fun _ => rfl, fun _ => rfl, Nat.le_refl _, fun _ i => ?_⟩
    · simp only [manage, Pool.wake, Pool.putBack, List.length_append, List.length_singleton]
      omega
    · rw [count_places, count_places]
      simp only [manage, evictions, discards, Pool.wake, Pool.putBack, List.map_append,
        List.map_singleton, Connection.touch, List.count_append, List.count_nil]
      omega

theorem settles_opened (w : World σ) (id offset stop generation : Nat) :
    w.Settles told ⟨0, [id]⟩ 0 0
      ((w.count Counters.opened).note (.opened id offset stop generation)) ⟨1, [id]⟩ := by
  have hcount : w.Settles told ⟨0, [id]⟩ 0 0 (w.count Counters.opened) ⟨1, [id]⟩ := by
    refine ⟨?_, rfl, rfl, fun _ => rfl, fun _ => rfl, Nat.le_refl _, fun _ i => ?_⟩
    · simp only [count, Counters.opened]
      omega
    · exact Nat.le_add_right _ _
  exact hcount.trans (((Unbooked.refl _ _).note rfl).settles _)

theorem settles_reused (w : World σ) (h : Hand) (id offset skip : Nat) :
    w.Settles told h 1 0 ((w.count Counters.reused).note (.reusing id offset skip)) h := by
  have hcount : w.Settles told h 1 0 (w.count Counters.reused) h := by
    refine ⟨rfl, rfl, ?_, fun _ => rfl, fun _ => rfl, Nat.le_refl _, fun _ i => ?_⟩
    · change w.counters.connsReused + 1 + w.requests.length = _
      omega
    · exact Nat.le_add_right _ _
  exact hcount.trans (((Unbooked.refl _ _).note rfl).settles _)

theorem settles_number (w : World σ) :
    w.Settles told ⟨0, []⟩ 0 0 (w.manage fun p => p.number.2) ⟨0, [w.pool.nextId]⟩ := by
  refine ⟨rfl, rfl, rfl, fun _ => rfl, fun _ => rfl, Nat.le_succ _, fun _ i => ?_⟩
  have hcount : ((w.manage fun p => p.number.2).places ⟨0, [w.pool.nextId]⟩).count i =
      (w.places ⟨0, []⟩).count i + [w.pool.nextId].count i := by
    rw [count_places, count_places]
    exact (Nat.add_assoc _ _ _).symm
  rw [hcount]
  refine Nat.add_le_add_left ?_ _
  split
  · exact List.count_le_length
  · rename_i hold
    have hne : i ≠ w.pool.nextId := fun hi =>
      hold ⟨Nat.le_of_eq hi.symm, Nat.lt_succ_of_le (Nat.le_of_eq hi)⟩
    exact Nat.le_of_eq (List.count_eq_zero.2 fun hmem => hne (List.mem_singleton.1 hmem))

theorem settles_issue (s : Setting σ τ) (c : Call) (w : World σ) (h : Hand) :
    w.Settles s.net.Discreet h (Event.openRange? (.call c)).toList.length 0
      ((w.count Counters.requested).issue s c).2 h := by
  have hcall : w.Settles s.net.Discreet h (Event.openRange? (.call c)).toList.length 0
      ((w.count Counters.requested).record (.call c)) h := by
    refine ⟨rfl, ?_, ?_, fun _ => rfl, fun _ => rfl, Nat.le_refl _, fun _ i => ?_⟩
    · change w.counters.requests + 1 + (Event.calls w.journal).length =
        w.counters.requests + ((Event.calls w.journal).length + 1)
      omega
    · cases c with
      | probe url | openRange url range => rfl
    · exact Nat.le_add_right _ _
  refine hcall.trans (Unbooked.settles ?_ h)
  rw [issue_eq]
  refine ⟨rfl, rfl, rfl, ⟨_, rfl, fun e he => ?_⟩, fun hd => ⟨_, rfl, fun e he => ?_⟩⟩ <;>
    obtain ⟨n, hn, rfl⟩ := List.mem_map.1 (List.mem_reverse.1 he)
  · rfl
  · exact Bool.not_eq_true' _ ▸ hd.send _ c w.net n hn

theorem settles_closePool (s : Setting σ τ) (w : World σ) (h : Hand) :
    w.Settles told h 0 w.pool.idle.length (w.closePool s) h := by
  rw [closePool_eq]
  refine ⟨?_, rfl, rfl, fun _ => rfl, fun _ => rfl, Nat.le_refl _, fun _ i => ?_⟩
  · simp only [Pool.wake, Pool.close, List.length_nil]
    omega
  · rw [count_places, count_places]
    simp only [evictions, discards, Pool.wake, Pool.close, List.map_nil, List.count_nil,
      List.filterMap_cons, Event.evicted?, Event.discarded?]
    omega

/-! ### From the beginning -/

/-- Every connection that is counted is counted once: the log tells of as many evictions and
discards as are counted, and no connection is told of twice. -/
structure CountsOnce (w : World σ) : Prop where
  /-- Evictions. -/
  evicted : w.counters.connsEvicted = w.evictions.length
  /-- Discards. -/
  discarded : w.counters.connsDiscarded = w.discards.length
  /-- No connection is evicted twice, or discarded twice, or both. -/
  nodup : (w.evictions ++ w.discards).Nodup

/-- Connections are conserved. Reads hold so many connections that they are `reading` from, and so
far so many slots were `handed` out, and so many idle connections were `shut` together with the
pool. -/
structure Conserved (s : Setting σ τ) (w : World σ) (reading shut handed : Nat) : Prop where
  /-- A connection that was opened was evicted or discarded, is idle or read from, or was closed
  together with the pool. -/
  conns : w.counters.connsOpened = w.counters.connsEvicted + w.counters.connsDiscarded +
    w.pool.idle.length + reading + shut
  /-- The requests that are counted are the calls of the transport. -/
  calls : w.counters.requests = (Event.calls w.journal).length
  /-- A slot was handed out for each connection that was used again, and for each range that was
  requested. -/
  handed : w.counters.connsReused + w.requests.length = handed
  /-- No connection is counted twice. -/
  once : s.net.Discreet → w.CountsOnce

/-- **Connections are conserved if accounts are settled from the beginning.** -/
theorem Settles.conserved {s : Setting σ τ} {net : σ} {url : String} {expiresAt : Option Int}
    (hs : (fresh net url expiresAt).Settles s.net.Discreet ⟨0, []⟩ m y w h) :
    w.Conserved s h.bodies y m := by
  have hconns := hs.conns
  have hcalls := hs.calls
  have hhanded := hs.handed
  have hzero : ((fresh net url expiresAt).counters) = {} := rfl
  have hidle : (fresh net url expiresAt).pool.idle = [] := rfl
  have hjournal : (fresh net url expiresAt).journal = [] := rfl
  simp only [hzero, hidle, requests, hjournal, Event.calls, List.filterMap_nil, List.length_nil,
    Nat.zero_add, Nat.add_zero] at hconns hcalls hhanded
  refine ⟨hconns, hcalls, hhanded, fun hd => ⟨?_, ?_, ?_⟩⟩
  · have hevicted := hs.evicted hd
    simpa only [hzero, evictions, hjournal, List.filterMap_nil, List.length_nil, Nat.zero_add,
      Nat.add_zero] using hevicted
  · have hdiscarded := hs.discarded hd
    simpa only [hzero, discards, hjournal, List.filterMap_nil, List.length_nil, Nat.zero_add,
      Nat.add_zero] using hdiscarded
  · -- at first no number is in any place, and a number that is new is in one
    refine List.nodup_iff_count_le_one.2 fun i => ?_
    have hi := hs.places hd i
    have hnone : ((fresh net url expiresAt).places ⟨0, []⟩).count i = 0 := rfl
    rw [count_places, hnone] at hi
    rw [List.count_append]
    split at hi <;> omega

end World

end RemoteFile
