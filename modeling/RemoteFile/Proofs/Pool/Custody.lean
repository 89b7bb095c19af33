import Mathlib.Data.List.Count
import Mathlib.Data.List.Nodup
import RemoteFile.Proofs.Pool.Crowd

/-!
# Who has a connection

A connection is idle, or it is held by the one attempt that opens it or reads on it. It passes from
hand to hand, and its number is never given again. It becomes idle only by a read on it that
succeeded and left bytes to be read. So a connection on which a read failed, was dropped, or came
to the end, is gone for good.

Main statements:

* `Fetch.Move.manages` : what a move of an attempt does to the pool.
* `Fetch.Manages.passes` : by that, connections pass from hand to hand.
* `Fetch.idle_step` : a connection becomes idle by a read on it that succeeded.
* `Fetch.Move.custody` : nobody ever has a connection together with somebody else.
* `Crowd.custody` : this is so in every crowd around a pool.
-/

namespace RemoteFile

variable {σ τ : Type}

namespace Reading

/-- Reading on a connection changes neither its number nor its end. -/
structure SameConn (c c' : Connection) : Prop where
  /-- Its number. -/
  id : c'.id = c.id
  /-- Its end. -/
  stop : c'.stop = c.stop

variable {idle : Duration} {r r' : Reading} {w w' : World σ}
  {t : Turn Reading (Except Failure (List UInt8) × Connection)}

theorem sameConn_step (h : r.step idle w = (t, w')) (ht : t.next? = some r') :
    SameConn r.conn r'.conn := by
  simp only [step, receive] at h
  split at h
  · cases h
    cases ht
  · split at h <;> rename_i heq <;> split at heq <;> cases heq <;> cases h <;> cases ht <;>
      exact ⟨rfl, rfl⟩

theorem sameConn_done {x : Except Failure (List UInt8)} {c : Connection}
    (h : r.step idle w = (.done (x, c), w')) : SameConn r.conn c := by
  simp only [step, receive] at h
  split at h
  · cases h
    exact ⟨rfl, rfl⟩
  · split at h <;> rename_i heq <;> split at heq <;> cases heq <;> cases h <;> exact ⟨rfl, rfl⟩

end Reading

namespace Fetch

/-- The number of the connection that an attempt opens or reads on. -/
def conn? (f : Fetch τ) : Option Nat :=
  match f.phase with
  | .looking | .parked _ => none
  | .opening id _ _ _ => some id
  | .reading r => some r.conn.id

/-- The numbers of all connections: of the idle ones, and of those that attempts hold. -/
def conns (p : Pool) (fs : List (Fetch τ)) : List Nat :=
  p.idle.map Connection.id ++ fs.filterMap conn?

/-- Connections pass from hand to hand: afterwards there are no others than before, except new
ones. -/
structure Passes (p : Pool) (fs : List (Fetch τ)) (q : Pool) (fs' : List (Fetch τ)) : Prop where
  /-- Numbers are not given again. -/
  nextId : p.nextId ≤ q.nextId
  /-- A connection is nowhere that it was not before, unless it is new. -/
  count : ∀ i, (conns q fs').count i ≤
    (conns p fs).count i + if p.nextId ≤ i ∧ i < q.nextId then 1 else 0

theorem count_conns (p : Pool) (fs : List (Fetch τ)) (i : Nat) :
    (conns p fs).count i = (p.idle.map Connection.id).count i + (fs.filterMap conn?).count i :=
  List.count_append

theorem conns_toList (p : Pool) (o : Option (Fetch τ)) :
    conns p o.toList = p.idle.map Connection.id ++ (o.bind conn?).toList := by
  cases o with
  | none => rfl
  | some f =>
    simp only [conns, Option.toList_some, List.filterMap_cons, List.filterMap_nil,
      Option.bind_some]
    cases f.conn? <;> rfl

theorem count_split (p : Pool) (l r : List (Fetch τ)) (o : Option (Fetch τ)) (i : Nat) :
    (conns p (l ++ o.toList ++ r)).count i =
      (conns p o.toList).count i + ((l.filterMap conn?).count i + (r.filterMap conn?).count i) := by
  simp only [count_conns, List.filterMap_append, List.count_append]
  omega

namespace Passes

variable {p q : Pool}

theorem refl (p : Pool) (fs : List (Fetch τ)) : Passes p fs p fs :=
  ⟨Nat.le_refl _, fun _ => Nat.le_add_right _ _⟩

theorem frame {o o' : Option (Fetch τ)} (h : Passes p o.toList q o'.toList)
    (l r : List (Fetch τ)) : Passes p (l ++ o.toList ++ r) q (l ++ o'.toList ++ r) := by
  refine ⟨h.nextId, fun i => ?_⟩
  have hi := h.count i
  rw [count_split, count_split]
  omega

end Passes

variable {s : Setting σ τ} {f f' : Fetch τ} {w w' : World σ}
  {t : Turn (Fetch τ) (Except Failure (List UInt8))}

theorem count_sweep_le (o : PoolOptions) (now : Nat) (p : Pool) (i : Nat) :
    ((p.sweep o now).idle.map Connection.id).count i ≤ (p.idle.map Connection.id).count i :=
  (List.filter_sublist.map _).count_le i

theorem count_taken {o : PoolOptions} {now : Nat} {p : Pool} {c : Connection}
    {rest : List Connection} (h : (p.sweep o now).idle.Perm (c :: rest)) (i : Nat) :
    (rest.map Connection.id).count i + [c.id].count i ≤ (p.idle.map Connection.id).count i := by
  have hsweep := count_sweep_le o now p i
  have hperm := (h.map Connection.id).count_eq i
  rw [List.map_cons, ← List.singleton_append, List.count_append] at hperm
  omega

theorem count_number_le (p : Pool) (i : Nat) :
    [p.nextId].count i ≤ if p.nextId ≤ i ∧ i < p.nextId + 1 then 1 else 0 := by
  rw [List.count_singleton]
  simp only [beq_iff_eq]
  split <;> split <;> omega

theorem conn?_of_looking (hf : f.phase = .looking) : f.conn? = none := by
  rw [conn?, hf]

theorem conn?_of_parked {since : Nat} (hf : f.phase = .parked since) : f.conn? = none := by
  rw [conn?, hf]

theorem conn?_of_opening {id stop deadline : Nat} {ticket : τ}
    (hf : f.phase = .opening id stop ticket deadline) : f.conn? = some id := by
  rw [conn?, hf]

theorem conn?_of_reading {r : Reading} (hf : f.phase = .reading r) :
    f.conn? = some r.conn.id := by
  rw [conn?, hf]

/-! ### What a step of a task does to the pool -/

/-- What one step of a task does to the pool and to the peak count, where the attempt has the
connections with the given numbers before and after it. -/
inductive Manages (s : Setting σ τ) (w : World σ) : Option Nat → World σ → Option Nat → Prop
  /-- The pool is left alone. -/
  | leaves {w' : World σ} (held : Option Nat) (hpool : w'.pool = w.pool)
      (hpeak : w'.counters.peakConns = w.counters.peakConns) : Manages s w held w' held
  /-- Stale connections are closed, and nothing can be had. -/
  | sweeps {w' : World σ} (hpool : w'.pool = w.pool.sweep s.options.pool w.now)
      (hpeak : w'.counters.peakConns = w.counters.peakConns) : Manages s w none w' none
  /-- An idle connection is taken out of the pool, once it was swept. -/
  | takes {w' : World σ} {c : Connection} {rest : List Connection}
      (hidle : (w.pool.sweep s.options.pool w.now).idle.Perm (c :: rest))
      (hpool : w'.pool = { w.pool.sweep s.options.pool w.now with idle := rest })
      (hpeak : w'.counters.peakConns = w.counters.peakConns) : Manages s w none w' (some c.id)
  /-- A connection is numbered, for a free slot. -/
  | reserves {w' : World σ}
      (hroom : (w.pool.sweep s.options.pool w.now).live < s.options.pool.maxConns)
      (hpool : w'.pool = (w.pool.sweep s.options.pool w.now).reserve.number.2)
      (hpeak : w'.counters.peakConns = max w.counters.peakConns w'.pool.live) :
      Manages s w none w' (some w.pool.nextId)
  /-- A connection is numbered, for the slot of an idle one, which is closed. -/
  | replaces {w' : World σ} {c : Connection} {rest : List Connection}
      (hidle : (w.pool.sweep s.options.pool w.now).idle.Perm (c :: rest))
      (hpool : w'.pool =
        ({ w.pool.sweep s.options.pool w.now with idle := rest } : Pool).number.2)
      (hpeak : w'.counters.peakConns = w.counters.peakConns) :
      Manages s w none w' (some w.pool.nextId)
  /-- A connection is let go, and its slot is free. -/
  | frees {w' : World σ} (id : Nat) (hpool : w'.pool = w.pool.release.wake)
      (hpeak : w'.counters.peakConns = w.counters.peakConns) : Manages s w (some id) w' none
  /-- A connection is put back. -/
  | givesBack {w' : World σ} (c : Connection) (hpool : w'.pool = (w.pool.putBack c).wake)
      (hpeak : w'.counters.peakConns = w.counters.peakConns) : Manages s w (some c.id) w' none

theorem Manages.beside {w₁ : World σ} {held held' : Option Nat} (h : Manages s w held w₁ held')
    (hw : w₁.Beside w') : Manages s w held w' held' := by
  cases h with
  | leaves _ hpool hpeak => exact .leaves _ (hw.pool.trans hpool) (hw.peak.trans hpeak)
  | sweeps hpool hpeak => exact .sweeps (hw.pool.trans hpool) (hw.peak.trans hpeak)
  | takes hidle hpool hpeak => exact .takes hidle (hw.pool.trans hpool) (hw.peak.trans hpeak)
  | reserves hroom hpool hpeak =>
    refine .reserves hroom (hw.pool.trans hpool) (hw.peak.trans ?_)
    rw [hw.pool]
    exact hpeak
  | replaces hidle hpool hpeak => exact .replaces hidle (hw.pool.trans hpool) (hw.peak.trans hpeak)
  | frees id hpool hpeak => exact .frees id (hw.pool.trans hpool) (hw.peak.trans hpeak)
  | givesBack c hpool hpeak => exact .givesBack c (hw.pool.trans hpool) (hw.peak.trans hpeak)

theorem manages_step (h : f.step s w = (t, w')) : Manages s w f.conn? w' (t.next?.bind conn?) := by
  cases turned h with
  | refused hf hc =>
    rw [conn?_of_looking hf]
    exact .leaves none rfl rfl
  | rouses hf hlt =>
    rw [conn?_of_parked hf]
    exact .leaves none rfl rfl
  | dozes hf hlt | expects hf harr => exact .leaves f.conn? rfl rfl
  | reuses hf hc hq =>
    rw [conn?_of_looking hf]
    cases hq with
    | reuse hskip hidle hleast => exact .takes hidle rfl (w.peak_sweep s)
  | reserves hf hc hq hr =>
    obtain ⟨⟨deadline, rfl⟩, hpool, -, hpeak, -⟩ := requested hr
    rw [conn?_of_looking hf]
    cases hq with
    | reserve hnone hroom =>
      refine .reserves hroom hpool ?_
      rw [hpool, hpeak]
      exact congrArg (max · _) (w.peak_sweep s)
  | replaces hf hc hq hr =>
    obtain ⟨⟨deadline, rfl⟩, hpool, -, hpeak, -⟩ := requested hr
    rw [conn?_of_looking hf]
    cases hq with
    | replace hnone hfull hidle hold =>
      exact .replaces hidle hpool (hpeak.trans (w.peak_sweep s))
  | parks hf hc hq =>
    rw [conn?_of_looking hf]
    cases hq with
    | wait hidle hfull => exact .sweeps rfl (w.peak_sweep s)
  | @expires id stop deadline ticket hf harr =>
    rw [conn?_of_opening hf]
    exact .frees id rfl rfl
  | @denied id stop deadline ticket e w₁ hf hcol =>
    rw [conn?_of_opening hf]
    refine .frees id ?_ (World.peak_of_collect hcol :)
    rw [World.pool_freeSlot, World.pool_of_collect hcol]
  | @opens id stop deadline ticket body w₁ hf hcol hstop =>
    rw [conn?_of_opening hf]
    exact .leaves (some id) (World.pool_of_collect hcol :) (World.peak_of_collect hcol :)
  | @wastes id stop deadline ticket body e w₁ hf hcol hstop =>
    rw [conn?_of_opening hf]
    refine .frees id ?_ (World.peak_of_collect hcol :)
    rw [World.pool_giveUp, World.pool_note, World.pool_count, World.pool_of_collect hcol]
  | @reads r r' tr t w' hf hr hnext ht =>
    have hw := Reading.beside_step hr
    rw [conn?_of_reading hf, ht, Option.bind_some, conn?_of_reading rfl,
      (Reading.sameConn_step hr hnext).id]
    exact .leaves _ hw.pool hw.peak
  | @finishes r bytes c w₁ hf hr =>
    have hw := Reading.beside_step hr
    rw [conn?_of_reading hf]
    rcases w₁.giveBack_eq s c with ⟨heq, -⟩ | ⟨heq, -⟩ <;> rw [heq]
    · refine .frees r.conn.id ?_ hw.peak
      rw [World.pool_giveUp, hw.pool]
    · rw [← (Reading.sameConn_done hr).id]
      refine .givesBack (c.touch w₁.now) ?_ hw.peak
      rw [World.pool_manage, hw.pool]
  | @breaks r e c w₁ hf hr =>
    have hw := Reading.beside_step hr
    rw [conn?_of_reading hf]
    refine .frees r.conn.id ?_ hw.peak
    rw [World.pool_giveUp, hw.pool]

theorem manages_drop (s : Setting σ τ) (f : Fetch τ) (w : World σ) :
    Manages s w f.conn? (f.drop s w) none := by
  obtain ⟨source, offset, len, phase⟩ := f
  cases phase with
  | looking | parked since => exact .leaves none rfl rfl
  | opening id stop ticket deadline => exact .frees id rfl rfl
  | reading r => exact .frees r.conn.id rfl rfl

/-- **What a move of an attempt does to the pool.** -/
theorem Move.manages {o o' : Option (Fetch τ)} (h : Move s w o w' o') :
    Manages s w (o.bind conn?) w' (o'.bind conn?) := by
  cases h with
  | aside hw => exact .leaves none hw.pool hw.peak
  | begins hf hw =>
    rw [Option.bind_some, conn?_of_looking hf]
    exact .leaves none hw.pool hw.peak
  | goesOn h ht =>
    rw [← ht]
    exact manages_step h
  | ends h hw => exact (manages_step h).beside hw
  | dropped hw => exact (manages_drop s _ w).beside hw

namespace Manages

variable {held held' : Option Nat}

theorem closed (h : Manages s w held w' held') : w'.pool.closed = w.pool.closed := by
  cases h <;> rename_i hpool _ <;> rw [hpool] <;> rfl

theorem nextId_le (h : Manages s w held w' held') : w.pool.nextId ≤ w'.pool.nextId := by
  cases h with
  | leaves _ hpool | sweeps hpool | takes _ hpool | frees _ hpool | givesBack _ hpool =>
    exact Nat.le_of_eq (congrArg Pool.nextId hpool).symm
  | reserves _ hpool | replaces _ hpool =>
    rw [hpool]
    exact Nat.le_succ w.pool.nextId

/-- A connection is nowhere that it was not before, unless it is new. -/
theorem count_le (h : Manages s w held w' held') (i : Nat) :
    (w'.pool.idle.map Connection.id).count i + held'.toList.count i ≤
      (w.pool.idle.map Connection.id).count i + held.toList.count i +
        if w.pool.nextId ≤ i ∧ i < w'.pool.nextId then 1 else 0 := by
  have hsweep := count_sweep_le s.options.pool w.now w.pool i
  cases h with
  | leaves _ hpool =>
    rw [hpool]
    exact Nat.le_add_right _ _
  | sweeps hpool =>
    rw [hpool]
    exact Nat.le_add_right_of_le hsweep
  | takes hidle hpool =>
    rw [hpool]
    exact Nat.le_add_right_of_le (count_taken hidle i)
  | reserves _ hpool =>
    rw [hpool]
    exact Nat.add_le_add hsweep (count_number_le w.pool i)
  | replaces hidle hpool =>
    rw [hpool]
    exact Nat.add_le_add (Nat.le_of_add_right_le (count_taken hidle i)) (count_number_le w.pool i)
  | frees _ hpool =>
    rw [hpool]
    exact Nat.le_add_right_of_le (Nat.le_add_right _ _)
  | givesBack c hpool =>
    -- the connection that was read on is idle now
    have hback : (w.pool.putBack c).wake.idle.map Connection.id =
        w.pool.idle.map Connection.id ++ [c.id] := List.map_append
    rw [hpool, hback, List.count_append]
    exact Nat.le_add_right _ _

/-- Connections pass from hand to hand. -/
theorem passes {o o' : Option (Fetch τ)} (h : Manages s w (o.bind conn?) w' (o'.bind conn?)) :
    Passes w.pool o.toList w'.pool o'.toList := by
  refine ⟨h.nextId_le, fun i => ?_⟩
  rw [conns_toList, conns_toList, List.count_append, List.count_append]
  exact h.count_le i

end Manages

theorem idle_drop (s : Setting σ τ) (f : Fetch τ) (w : World σ) :
    (f.drop s w).pool.idle = w.pool.idle := by
  unfold drop
  split <;> rfl

/-! ### What becomes idle -/

/-- The attempt has read on the connection with success, and bytes are left. -/
structure LeavesIdle (f : Fetch τ) (w : World σ)
    (t : Turn (Fetch τ) (Except Failure (List UInt8))) (d : Connection) : Prop where
  /-- The pool is open. -/
  isOpen : w.pool.closed = false
  /-- The attempt has held the connection. -/
  reading : ∃ r, f.phase = .reading r ∧ Reading.SameConn r.conn d
  /-- It has succeeded. -/
  done : ∃ bytes, t = .done (.ok bytes)
  /-- The connection has bytes left. -/
  cursor : d.cursor < d.stop

/-- A connection becomes idle by a read on it that succeeded. -/
theorem idle_step (h : f.step s w = (t, w')) {d : Connection} (hd : d ∈ w'.pool.idle) :
    d ∈ w.pool.idle ∨ f.LeavesIdle w t d := by
  have hsweep : ∀ {c : Connection}, c ∈ (w.pool.sweep s.options.pool w.now).idle →
      c ∈ w.pool.idle := fun hc => (List.mem_filter.1 hc).1
  cases turned h with
  | refused | rouses | dozes | expects | expires => exact .inl hd
  | reuses hf hc hq =>
    cases hq with
    | reuse hskip hidle hleast =>
      exact .inl (hsweep (hidle.mem_iff.2 (List.mem_cons_of_mem _ hd)))
  | reserves hf hc hq hr =>
    rw [(requested hr).pool] at hd
    cases hq with
    | reserve hnone hroom => exact .inl (hsweep hd)
  | replaces hf hc hq hr =>
    rw [(requested hr).pool] at hd
    cases hq with
    | replace hnone hfull hidle hold =>
      exact .inl (hsweep (hidle.mem_iff.2 (List.mem_cons_of_mem _ hd)))
  | parks hf hc hq =>
    cases hq with
    | wait hidle hfull => exact .inl (hsweep hd)
  | denied hf hcol =>
    rw [World.pool_freeSlot, World.pool_of_collect hcol] at hd
    exact .inl hd
  | opens hf hcol hstop =>
    rw [World.pool_note, World.pool_count, World.pool_of_collect hcol] at hd
    exact .inl hd
  | wastes hf hcol hstop =>
    rw [World.pool_giveUp, World.pool_note, World.pool_count, World.pool_of_collect hcol] at hd
    exact .inl hd
  | reads hf hr hnext ht =>
    rw [(Reading.beside_step hr).pool] at hd
    exact .inl hd
  | breaks hf hr =>
    rw [World.pool_giveUp, (Reading.beside_step hr).pool] at hd
    exact .inl hd
  | @finishes r bytes c w₁ hf hr =>
    have hpool := (Reading.beside_step hr).pool
    rcases w₁.giveBack_eq s c with ⟨heq, -⟩ | ⟨heq, hspent, hopen⟩ <;> rw [heq] at hd
    · rw [World.pool_giveUp, hpool] at hd
      exact .inl hd
    · rw [World.pool_manage, hpool] at hd
      rcases List.mem_append.1 hd with hd | hd
      · exact .inl hd
      · rw [List.mem_singleton.1 hd]
        have hsame := Reading.sameConn_done hr
        have hleft : c.cursor < c.stop := by
          simpa only [Connection.isSpent, decide_eq_false_iff_not, Nat.not_le] using hspent
        exact .inr ⟨hpool ▸ hopen, ⟨r, hf, hsame.id, hsame.stop⟩, ⟨bytes, rfl⟩, hleft⟩

/-- The connection that an attempt opens or reads on does not reach past the end of the object. -/
def Within (size : Nat) (f : Fetch τ) : Prop :=
  match f.phase with
  | .looking | .parked _ => True
  | .opening _ stop _ _ => stop ≤ size
  | .reading r => r.conn.stop ≤ size

theorem within_step (h : f.step s w = (t, w')) (hidle : ∀ c ∈ w.pool.idle, c.stop ≤ s.size)
    (hf : f.Within s.size) (ht : t.next? = some f') : f'.Within s.size := by
  cases turned h with
  | refused | expires | denied | wastes | finishes | breaks => cases ht
  | reuses _ hc hq =>
    cases ht
    cases hq with
    | reuse hskip hperm hleast =>
      exact hidle _ (List.mem_filter.1 (hperm.mem_iff.2 List.mem_cons_self)).1
  | reserves _ hc hq hr | replaces _ hc hq hr =>
    obtain ⟨⟨deadline, rfl⟩, -⟩ := requested hr
    cases ht
    exact rangeStop_le _ _ _
  | parks | rouses =>
    cases ht
    trivial
  | dozes | expects =>
    cases ht
    exact hf
  | opens hphase hcol hstop =>
    cases ht
    rw [Within, hphase] at hf
    exact hf
  | reads hphase hr hnext ht' =>
    rw [ht'] at ht
    cases ht
    rw [Within, hphase] at hf
    exact Nat.le_trans (Nat.le_of_eq (Reading.sameConn_step hr hnext).stop) hf

/-- Everybody has connections of their own: each is idle once or held once, and has a number that
was given before. -/
structure Apart (p : Pool) (fs : List (Fetch τ)) : Prop where
  /-- A connection is idle once, or held once. -/
  once : ∀ i, (conns p fs).count i ≤ 1
  /-- Numbers that are still to be given are not in use. -/
  known : ∀ i ∈ conns p fs, i < p.nextId

theorem Passes.apart {p q : Pool} {fs fs' : List (Fetch τ)} (h : Passes p fs q fs')
    (ha : Apart p fs) : Apart q fs' := by
  have hnew : ∀ i, p.nextId ≤ i → (conns p fs).count i = 0 := fun i hi =>
    List.count_eq_zero.2 fun hmem => Nat.not_le_of_lt (ha.known i hmem) hi
  refine ⟨fun i => ?_, fun i hmem => ?_⟩ <;> have hi := h.count i
  · have honce := ha.once i
    split at hi
    · rename_i hlt
      have := hnew i hlt.1
      omega
    · omega
  · have hpos := List.count_pos_iff.2 hmem
    split at hi
    · rename_i hlt
      exact hlt.2
    · have hmem' : i ∈ conns p fs := List.count_pos_iff.1 (by omega)
      exact Nat.lt_of_lt_of_le (ha.known i hmem') h.nextId

theorem Apart.not_held {p : Pool} {fs : List (Fetch τ)} (h : Apart p fs) {c : Connection}
    (hc : c ∈ p.idle) {f : Fetch τ} (hf : f ∈ fs) : f.conn? ≠ some c.id := by
  intro hid
  have honce := h.once c.id
  have hidle := List.count_pos_iff.2 (List.mem_map_of_mem (f := Connection.id) hc)
  have hheld := List.count_pos_iff.2 (List.mem_filterMap.2 ⟨f, hf, hid⟩)
  rw [count_conns] at honce
  omega

theorem Apart.not_mem_of_lets_go {p q : Pool} {l r : List (Fetch τ)} {f : Fetch τ} {i : Nat}
    (h : Apart p (l ++ (some f).toList ++ r)) (hi : f.conn? = some i)
    (hidle : ∀ d ∈ q.idle, d ∈ p.idle) :
    i ∉ conns q (l ++ (none : Option (Fetch τ)).toList ++ r) := by
  have honce := h.once i
  rw [count_split, conns_toList, Option.bind_some, hi, Option.toList_some, List.count_append,
    List.count_singleton_self] at honce
  have hnone : i ∉ p.idle.map Connection.id := List.count_eq_zero.1 (by omega)
  rw [← List.count_eq_zero, count_split, conns_toList, Option.bind_none, Option.toList_none,
    List.append_nil, List.count_eq_zero.2 fun hmem => ?_]
  · omega
  · obtain ⟨d, hd, rfl⟩ := List.mem_map.1 hmem
    exact hnone (List.mem_map_of_mem (hidle d hd))

theorem Passes.not_mem {p q : Pool} {fs fs' : List (Fetch τ)} (h : Passes p fs q fs') {i : Nat}
    (hi : i < p.nextId) (hmem : i ∉ conns p fs) : i < q.nextId ∧ i ∉ conns q fs' := by
  have hcount := h.count i
  rw [List.count_eq_zero.2 hmem, if_neg (by omega)] at hcount
  exact ⟨Nat.lt_of_lt_of_le hi h.nextId, List.count_eq_zero.1 (Nat.le_zero.1 hcount)⟩

/-- Everybody has connections of their own, idle connections have bytes of the object left, and a
closed pool has none. -/
structure Custody (s : Setting σ τ) (w : World σ) (fs : List (Fetch τ)) : Prop where
  /-- Nobody has a connection together with somebody else. -/
  apart : Apart w.pool fs
  /-- Idle connections have bytes of the object left. -/
  idle : ∀ c ∈ w.pool.idle, c.cursor < c.stop ∧ c.stop ≤ s.size
  /-- Held ones do not reach past its end. -/
  held : ∀ f ∈ fs, f.Within s.size
  /-- A closed pool has no idle connections. -/
  closed : w.pool.closed = true → w.pool.idle = []

theorem custody_fresh {w₀ : World σ} (h₀ : w₀.pool = Pool.fresh) :
    Custody s w₀ ([] : List (Fetch τ)) := by
  have hidle : w₀.pool.idle = [] := by
    rw [h₀]
    rfl
  have hconns : conns w₀.pool ([] : List (Fetch τ)) = [] := by
    rw [conns, hidle]
    rfl
  refine ⟨⟨fun i => ?_, fun i hi => ?_⟩, fun d hd => ?_, fun f hf => ?_, fun _ => hidle⟩
  · rw [hconns]
    exact Nat.zero_le _
  · rw [hconns] at hi
    cases hi
  · rw [hidle] at hd
    cases hd
  · cases hf

section

variable {o o' : Option (Fetch τ)}

theorem Move.idle (h : Move s w o w' o') {d : Connection} (hd : d ∈ w'.pool.idle) :
    d ∈ w.pool.idle ∨ ∃ f t, o = some f ∧ f.LeavesIdle w t d := by
  cases h with
  | aside hw | begins _ hw =>
    rw [hw.pool] at hd
    exact .inl hd
  | goesOn h ht => exact (idle_step h hd).imp_right fun hl => ⟨_, _, rfl, hl⟩
  | ends h hw =>
    rw [hw.pool] at hd
    exact (idle_step h hd).imp_right fun hl => ⟨_, _, rfl, hl⟩
  | dropped hw =>
    rw [hw.pool, idle_drop] at hd
    exact .inl hd

theorem Move.within (h : Move s w o w' o') (hidle : ∀ c ∈ w.pool.idle, c.stop ≤ s.size)
    (ho : ∀ f ∈ o, f.Within s.size) : ∀ f ∈ o', f.Within s.size := by
  intro f hf
  cases h with
  | aside hw => cases hf
  | begins hphase hw =>
    cases hf
    rw [Within, hphase]
    trivial
  | goesOn h ht =>
    cases hf
    exact within_step h hidle (ho _ rfl) ht
  | ends h hw | dropped hw => cases hf

/-- **Nobody ever has a connection together with somebody else.** -/
theorem Move.custody {l r : List (Fetch τ)} (h : Move s w o w' o')
    (hc : Custody s w (l ++ o.toList ++ r)) : Custody s w' (l ++ o'.toList ++ r) := by
  have hstop : ∀ c ∈ w.pool.idle, c.stop ≤ s.size := fun c hmem => (hc.idle c hmem).2
  have ho : ∀ f ∈ o, f.Within s.size := fun f hf => hc.held f (by simp [Option.mem_def.1 hf])
  refine ⟨(h.manages.passes.frame l r).apart hc.apart, fun d hd => ?_, fun f hf => ?_,
    fun hclosed => ?_⟩
  · rcases h.idle hd with hd | ⟨f, t, rfl, hl⟩
    · exact hc.idle d hd
    · obtain ⟨x, hx, hsame⟩ := hl.reading
      have hwithin := ho f rfl
      rw [Within, hx] at hwithin
      exact ⟨hl.cursor, Nat.le_trans (Nat.le_of_eq hsame.stop) hwithin⟩
  · simp only [List.mem_append, Option.mem_toList] at hf
    rcases hf with (hf | hf) | hf
    · exact hc.held f (by simp [hf])
    · exact h.within hstop ho f hf
    · exact hc.held f (by simp [hf])
  · rw [h.manages.closed] at hclosed
    refine List.eq_nil_iff_forall_not_mem.2 fun d hd => ?_
    rcases h.idle hd with hd | ⟨f, t, rfl, hl⟩
    · rw [hc.closed hclosed] at hd
      cases hd
    · rw [hl.isOpen] at hclosed
      cases hclosed

end

end Fetch

namespace PoolRead

variable {s : Setting σ τ} {shift : σ → σ → Prop} {w w' : World σ} {d : Connection}

theorem Outside.passes {fs : List (Fetch τ)} (h : Outside s shift w w') :
    Fetch.Passes w.pool fs w'.pool fs := by
  cases h with
  | pass millis w => exact .refl _ _
  | close w =>
    rw [World.pool_closePool]
    refine ⟨Nat.le_refl _, fun i => Nat.le_add_right_of_le ?_⟩
    rw [Fetch.count_conns, Fetch.count_conns]
    exact Nat.add_le_add_right (Nat.zero_le _) _
  | shift w h => exact .refl _ _

theorem Outside.idle (h : Outside s shift w w') (hd : d ∈ w'.pool.idle) : d ∈ w.pool.idle := by
  cases h with
  | pass millis w => exact hd
  | close w =>
    rw [World.pool_closePool] at hd
    cases hd
  | shift w h => exact hd

theorem Outside.custody {fs : List (Fetch τ)} (h : Outside s shift w w')
    (hc : Fetch.Custody s w fs) : Fetch.Custody s w' fs := by
  refine ⟨(Outside.passes h).apart hc.apart, fun d hd => hc.idle d (Outside.idle h hd), hc.held, ?_⟩
  cases h with
  | pass millis w => exact hc.closed
  | close w =>
    rw [World.pool_closePool]
    exact fun _ => rfl
  | shift w h => exact hc.closed

end PoolRead

namespace Crowd

variable {κ α β : Type} {m : Rules (World σ) κ α β} {s : Setting σ τ} {shift : σ → σ → Prop}
  {fetch? : α → Option (Fetch τ)} {w₀ : World σ} {c : Crowd (World σ) κ α β}

/-- Everybody has connections of their own in every crowd around a pool. -/
theorem custody (hm : m.Pooling s shift fetch?) (h : Reachable m (empty w₀) c)
    (h₀ : w₀.pool = Pool.fresh) : Fetch.Custody s c.world (c.attempts fetch?) := by
  refine h.attempts (I := Fetch.Custody s) hm.acting.attempting (Fetch.custody_fresh h₀)
    (fun hc hmove => hmove.custody hc) fun {fs w w'} hc hout => ?_
  obtain ⟨w₁, hpool, halike⟩ := hm.outside hout
  obtain ⟨hapart, hidle, hheld, hclosed⟩ := PoolRead.Outside.custody hpool hc
  rw [← halike.pool] at hapart hidle hclosed
  exact ⟨hapart, hidle, hheld, hclosed⟩

end Crowd

end RemoteFile
