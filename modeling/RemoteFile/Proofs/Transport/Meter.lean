import RemoteFile.Proofs.Pool.Ledger

/-!
# Counting open responses

A transport with a meter: it counts the responses that are open, and writes down that count
whenever a range is requested. The meter only watches; what goes over the transport stays the same.
Here the count is compared with what the pool and the attempts hold.

Main statements:

* `Fetch.records_step` : a turn of an attempt opens and closes what `Metered.Balances` says, one
  operation after the other, and then requests a range at most.
* `Fetch.Move.metered` : what a move opens and closes is what the pool and the attempt gain and
  lose, and a request is written down with the count as it is at the end of the turn.
* `Crowd.alive_eq` : the open responses are the idle ones and those that are read from.
-/

namespace RemoteFile

/-- The state of a transport with a meter. -/
structure Metered (σ : Type) where
  /-- The transport. -/
  inner : σ
  /-- The responses that were opened less those that were closed. -/
  alive : Int
  /-- That count at every request for a range, the latest first. -/
  asked : List Int

/-- The transport with a meter. -/
def Transport.metered {σ τ : Type} (net : Transport σ τ) : Transport (Metered σ) τ where
  send now call m :=
    let (ticket, inner, notices) := net.send now call m.inner
    let asked := match call with
      | .probe _ => m.asked
      | .openRange _ _ => m.alive :: m.asked
    (ticket, ⟨inner, m.alive, asked⟩, notices)
  due := net.due
  probed ticket m := net.probed ticket m.inner
  opened ticket m :=
    match net.opened ticket m.inner with
    | (.ok body, inner, notices) => (.ok body, ⟨inner, m.alive + 1, m.asked⟩, notices)
    | (.error f, inner, notices) => (.error f, ⟨inner, m.alive, m.asked⟩, notices)
  closed m := ⟨net.closed m.inner, m.alive - 1, m.asked⟩

/-- The same setting with a meter at its transport. -/
def Setting.metered {σ τ : Type} (s : Setting σ τ) : Setting (Metered σ) τ :=
  ⟨s.net.metered, s.renewer, s.options, s.size, s.rests, s.sample, s.clock⟩

/-- The same world with a meter that is set to zero. -/
def World.metered {σ : Type} (w : World σ) : World (Metered σ) :=
  { w with net := ⟨w.net, 0, []⟩ }

namespace Metered

variable {σ τ : Type}

/-- The transport changes by itself, and the meter does not notice. -/
def Shift (shift : σ → σ → Prop) (m m' : Metered σ) : Prop :=
  shift m.inner m'.inner ∧ m'.alive = m.alive ∧ m'.asked = m.asked

theorem closed_iterate (net : Transport σ τ) (n : Nat) (m : Metered σ) :
    net.metered.closed^[n] m = ⟨net.closed^[n] m.inner, m.alive - n, m.asked⟩ := by
  induction n generalizing m with
  | zero => simp
  | succ n ih =>
    rw [Function.iterate_succ_apply, ih, Function.iterate_succ_apply]
    simp only [Transport.metered, mk.injEq, true_and, and_true]
    omega

/-- How many responses an answer opens. -/
def opening : Except Failure Body → Nat
  | .ok _ => 1
  | .error _ => 0

theorem opened_spec {net : Transport σ τ} {ticket : τ} {m m' : Metered σ} {notices : List Notice}
    {r : Except Failure Body} (h : net.metered.opened ticket m = (r, m', notices)) :
    m'.alive = m.alive + opening r ∧ m'.asked = m.asked := by
  simp only [Transport.metered] at h
  split at h <;> cases h
  · exact ⟨rfl, rfl⟩
  · exact ⟨(Int.add_zero _).symm, rfl⟩

/-- Responses are opened and closed as the pool and the attempt gain and lose them, and no range is
requested: `b` and `b'` are the responses that are read from before and after it. -/
structure Balances (w w' : World (Metered σ)) (b b' : Nat) : Prop where
  /-- Responses are idle or read from. -/
  alive : w'.net.alive + w.pool.idle.length + b = w.net.alive + w'.pool.idle.length + b'
  /-- No range is requested. -/
  asked : w'.net.asked = w.net.asked

/-- What a change of a world does to the meter: `b` and `b'` are the responses that are read from
before and after it. -/
structure Records (w w' : World (Metered σ)) (b b' : Nat) : Prop where
  /-- Responses are idle or read from. -/
  alive : w'.net.alive + w.pool.idle.length + b = w.net.alive + w'.pool.idle.length + b'
  /-- At most one range is requested, and nothing is opened or closed after that. -/
  asked : w'.net.asked = w.net.asked ∨ w'.net.asked = w'.net.alive :: w.net.asked

namespace Balances

variable {w w₁ w' : World (Metered σ)} {b b₁ b' : Nat}

theorem same (hnet : w'.net = w.net) (hidle : w'.pool.idle = w.pool.idle) : Balances w w' b b :=
  ⟨by rw [hnet, hidle], by rw [hnet]⟩

theorem trans (h : Balances w w₁ b b₁) (h' : Balances w₁ w' b₁ b') : Balances w w' b b' := by
  have halive := h.alive
  have halive' := h'.alive
  exact ⟨by omega, h'.asked.trans h.asked⟩

theorem besides (h : Balances w w₁ b b') (hnet : w'.net = w₁.net)
    (hidle : w'.pool.idle = w₁.pool.idle) : Balances w w' b b' :=
  h.trans (.same hnet hidle)

theorem records (h : Balances w w₁ b b') (hnet : w'.net = w₁.net)
    (hidle : w'.pool.idle = w₁.pool.idle) : Records w w' b b' :=
  ⟨(h.besides hnet hidle).alive, .inl (h.besides hnet hidle).asked⟩

theorem asks (h : Balances w w₁ b b') (halive : w'.net.alive = w₁.net.alive)
    (hasked : w'.net.asked = w₁.net.alive :: w₁.net.asked) (hidle : w'.pool.idle = w₁.pool.idle) :
    Records w w' b b' :=
  ⟨by rw [halive, hidle, h.alive], .inr (by rw [hasked, halive, h.asked])⟩

end Balances

theorem Records.beside {w w₁ w' : World (Metered σ)} {b b' : Nat} (hr : Records w w₁ b b')
    (hw : w₁.Beside w') : Records w w' b b' :=
  ⟨by rw [hw.net, hw.pool, hr.alive], by rw [hw.net]; exact hr.asked⟩

end Metered

namespace Fetch

open Metered

variable {σ τ : Type} {s : Setting σ τ} {f : Fetch τ} {w w₁ w' : World (Metered σ)}
  {t : Turn (Fetch τ) (Except Failure (List UInt8))}

/-- Is the attempt waiting for the answer to a request of its own? -/
def calls (f : Fetch τ) : Nat :=
  match f.phase with
  | .looking | .parked _ | .reading _ => 0
  | .opening _ _ _ _ => 1

/-- Is the attempt reading from a response? -/
def bodies (f : Fetch τ) : Nat :=
  match f.phase with
  | .looking | .parked _ | .opening _ _ _ _ => 0
  | .reading _ => 1

/-- A slot is held by a request or by a response. -/
theorem slots_eq (f : Fetch τ) : f.slots = f.calls + f.bodies := by
  obtain ⟨source, offset, len, phase⟩ := f
  cases phase <;> rfl

theorem total_slots_eq (fs : List (Fetch τ)) :
    total slots fs = total calls fs + total bodies fs := by
  induction fs with
  | nil => rfl
  | cons f fs ih =>
    simp only [total] at ih ⊢
    rw [ih, slots_eq]
    omega

theorem balances_sweep (s : Setting σ τ) (w : World (Metered σ)) (b : Nat) :
    Balances w (w.sweep s.metered) b b := by
  have hl := List.length_eq_length_filter_add (l := w.pool.idle)
    (Pool.isStale s.options.pool w.now)
  have hnet : (w.sweep s.metered).net =
      ⟨s.net.closed^[(w.pool.stale s.options.pool w.now).length] w.net.inner,
        w.net.alive - (w.pool.stale s.options.pool w.now).length, w.net.asked⟩ := by
    rw [World.net_sweep]
    exact closed_iterate _ _ _
  refine ⟨?_, by rw [hnet]⟩
  rw [hnet, World.pool_sweep]
  simp only [Pool.stale, Pool.sweep, Setting.metered, hl]
  push_cast
  omega

theorem balances_taken {c : Connection} {rest : List Connection}
    (h : (w.pool.sweep s.metered.options.pool w.now).idle.Perm (c :: rest)) :
    Balances w ((w.sweep s.metered).manage fun _ =>
      { w.pool.sweep s.metered.options.pool w.now with idle := rest }) 0 1 := by
  have hl := h.length_eq
  rw [List.length_cons] at hl
  refine (balances_sweep s w 0).trans ⟨?_, rfl⟩
  rw [World.net_manage, World.pool_manage, World.pool_sweep, hl]
  push_cast
  omega

theorem balances_swept {q : Pool}
    (hidle : q.idle = (w.pool.sweep s.metered.options.pool w.now).idle) :
    Balances w ((w.sweep s.metered).manage fun _ => q) 0 0 := by
  refine (balances_sweep s w 0).besides rfl ?_
  rw [World.pool_manage, World.pool_sweep, hidle]

theorem balances_giveUp (s : Setting σ τ) (c : Connection) (w : World (Metered σ)) :
    Balances w (w.giveUp s.metered c) 1 0 := by
  refine ⟨?_, rfl⟩
  change w.net.alive - 1 + (w.pool.idle.length : Int) + ((1 : Nat) : Int) =
    w.net.alive + w.pool.idle.length + ((0 : Nat) : Int)
  omega

theorem balances_evict (s : Setting σ τ) (c : Connection) (w : World (Metered σ)) :
    Balances w (w.evict s.metered c) 1 0 :=
  (balances_giveUp s c w).besides rfl rfl

theorem balances_giveBack (s : Setting σ τ) (c : Connection) (w : World (Metered σ)) :
    Balances w (w.giveBack s.metered c) 1 0 := by
  rcases w.giveBack_eq s.metered c with ⟨heq, -⟩ | ⟨heq, -⟩ <;> rw [heq]
  · exact balances_giveUp s c w
  · refine ⟨?_, rfl⟩
    rw [World.net_manage, World.pool_manage]
    simp only [Pool.wake, Pool.putBack, List.length_append, List.length_singleton]
    omega

theorem balances_beside (b : Nat) (hw : w.Beside w₁) : Balances w w₁ b b :=
  .same hw.net (congrArg Pool.idle hw.pool)

theorem balances_collect {ticket : τ} {r : Except Failure Body}
    (h : w.collect s.metered ticket = (r, w₁)) : Balances w w₁ 0 (opening r) := by
  obtain ⟨notices, hopened⟩ := World.net_of_collect h
  obtain ⟨halive, hasked⟩ := opened_spec hopened
  refine ⟨?_, hasked⟩
  rw [World.pool_of_collect h, halive]
  omega

theorem records_request {b : Nat} (h : f.request s.metered w₁ = (t, w'))
    (hr : Balances w w₁ b 0) : Records w w' b (total bodies t.next?.toList) := by
  obtain ⟨⟨deadline, rfl⟩, hpool, hnet, -⟩ := requested h
  exact hr.asks (by rw [hnet]; rfl) (by rw [hnet]; rfl) (by rw [hpool]; rfl)

/-- A turn of an attempt, as the meter sees it. -/
theorem records_step (h : f.step s.metered w = (t, w')) :
    Records w w' f.bodies (total bodies t.next?.toList) := by
  obtain ⟨source, offset, len, phase⟩ := f
  cases turned h with
  | refused hf hc | rouses hf hlt | dozes hf hlt | expects hf harr | expires hf harr =>
    cases hf
    exact (balances_beside _ (.refl w)).records rfl rfl
  | reuses hf hc hq =>
    cases hf
    cases hq with
    | reuse hskip hidle hleast => exact Balances.records (balances_taken hidle) rfl rfl
  | reserves hf hc hq hr =>
    cases hf
    cases hq with
    | reserve hnone hroom =>
      exact records_request hr ((balances_swept (q := Pool.reserve _) rfl).besides rfl rfl)
  | replaces hf hc hq hr =>
    cases hf
    cases hq with
    | replace hnone hfull hidle hold =>
      -- the connection is closed before the request is sent, which does not see it any more
      exact records_request hr ((balances_taken hidle).trans (balances_evict s _ _))
  | parks hf hc hq =>
    cases hf
    cases hq with
    | wait hidle hfull => exact Balances.records (balances_swept rfl) rfl rfl
  | denied hf hcol | opens hf hcol hstop =>
    cases hf
    exact Balances.records (balances_collect hcol) rfl rfl
  | @wastes id stop deadline ticket body e w₁ hf hcol hstop =>
    cases hf
    have hgone := balances_giveUp s (.opened id offset stop body w₁.now) w₁
    exact ((balances_collect hcol).trans hgone).records rfl rfl
  | reads hf hr hnext ht =>
    cases hf
    rw [ht]
    exact (balances_beside 1 (Reading.beside_step hr)).records rfl rfl
  | @finishes r bytes c w₁ hf hr =>
    cases hf
    have hread := balances_beside 1 (Reading.beside_step hr)
    exact (hread.trans (balances_giveBack s c w₁)).records rfl rfl
  | @breaks r e c w₁ hf hr =>
    cases hf
    have hread := balances_beside 1 (Reading.beside_step hr)
    exact (hread.trans (balances_giveUp s c w₁)).records rfl rfl

theorem records_drop (f : Fetch τ) (w : World (Metered σ)) :
    Records w (f.drop s.metered w) f.bodies 0 := by
  obtain ⟨source, offset, len, phase⟩ := f
  cases phase with
  | looking | parked since | opening id stop ticket deadline =>
    exact (balances_beside _ (.refl w)).records rfl rfl
  | reading r => exact (balances_giveUp s r.conn w).records rfl rfl

/-- **A move of an attempt, as the meter sees it.** -/
theorem Move.metered {o o' : Option (Fetch τ)} (h : Move s.metered w o w' o') :
    Records w w' (total bodies o.toList) (total bodies o'.toList) := by
  cases h with
  | aside hw => exact (balances_beside _ hw).records rfl rfl
  | begins hf hw =>
    rw [total_some, bodies, hf]
    exact (balances_beside _ hw).records rfl rfl
  | goesOn h ht =>
    have hr := records_step h
    rw [ht] at hr
    exact hr
  | ends h hw => exact (records_step h).beside hw
  | dropped hw => exact (records_drop _ w).beside hw

end Fetch

section

open Metered

variable {σ τ κ α β : Type} {s : Setting σ τ} {shift : σ → σ → Prop}

theorem PoolRead.Outside.metered {w w' : World (Metered σ)} {b : Nat}
    (h : Outside s.metered (Shift shift) w w') : Records w w' b b := by
  cases h with
  | pass millis w => exact (Fetch.balances_beside _ (.refl w)).records rfl rfl
  | close w =>
    have hnet : (w.closePool s.metered).net =
        ⟨s.net.closed^[w.pool.idle.length] w.net.inner, w.net.alive - w.pool.idle.length,
          w.net.asked⟩ := by
      rw [World.net_closePool]
      exact closed_iterate _ _ _
    refine ⟨?_, .inl (by rw [hnet])⟩
    rw [hnet, World.pool_closePool]
    simp only [Pool.wake, Pool.close, List.length_nil]
    omega
  | shift w h => exact ⟨by rw [h.2.1], .inl h.2.2⟩

namespace Crowd

variable {m : Rules (World (Metered σ)) κ α β} {fetch? : α → Option (Fetch τ)}
  {w₀ : World (Metered σ)} {c c' : Crowd (World (Metered σ)) κ α β}

theorem records_of_step (hm : m.Pooling s.metered (Shift shift) fetch?) (h : Step m c c') :
    Records c.world c'.world (Fetch.total Fetch.bodies (c.attempts fetch?))
      (Fetch.total Fetch.bodies (c'.attempts fetch?)) := by
  rcases h.moved hm.acting.attempting with ⟨l, r, o, o', hl, hl', hmove⟩ | ⟨heq, hout⟩
  · obtain ⟨halive, hasked⟩ := hmove.metered
    refine ⟨?_, hasked⟩
    rw [hl, hl', Fetch.total_split, Fetch.total_split]
    omega
  · obtain ⟨w₁, hpool, halike⟩ := hm.outside hout
    obtain ⟨halive, hasked⟩ := PoolRead.Outside.metered hpool
      (b := Fetch.total Fetch.bodies (c.attempts fetch?))
    rw [heq]
    exact ⟨by rw [halike.net, halike.pool, halive], by rw [halike.net]; exact hasked⟩

/-- The open responses are the idle ones and those that are read from. -/
theorem alive_eq (hm : m.Pooling s.metered (Shift shift) fetch?) (h : Reachable m (empty w₀) c)
    (h₀ : w₀.pool = Pool.fresh) (hnet : w₀.net.alive = 0) :
    c.world.net.alive =
      c.world.pool.idle.length + Fetch.total Fetch.bodies (c.attempts fetch?) := by
  refine h.invariant (I := fun c => c.world.net.alive = (c.world.pool.idle.length : Int) +
    Fetch.total Fetch.bodies (c.attempts fetch?)) ?_ fun c c' hc hs => ?_
  · change w₀.net.alive = w₀.pool.idle.length + ((0 : Nat) : Int)
    rw [hnet, h₀]
    rfl
  · have := (records_of_step hm hs).alive
    omega

end Crowd

end

namespace PoolRead

open Metered

variable {σ τ : Type} {s : Setting σ τ} {shift : σ → σ → Prop} {w₀ : World σ}
  {c c' : Crowd (World (Metered σ)) Wanted (PoolRead τ) (Except Failure (List UInt8))}

/-- The requests for a range that the reads of a crowd are waiting for. -/
def calls (c : Crowd (World σ) Wanted (PoolRead τ) (Except Failure (List UInt8))) : Nat :=
  Fetch.total Fetch.calls (c.attempts attempt?)

/-- The responses that the reads of a crowd are reading from. -/
def bodies (c : Crowd (World σ) Wanted (PoolRead τ) (Except Failure (List UInt8))) : Nat :=
  Fetch.total Fetch.bodies (c.attempts attempt?)

theorem checkouts_eq (c : Crowd (World σ) Wanted (PoolRead τ) (Except Failure (List UInt8))) :
    checkouts c = calls c + bodies c :=
  Fetch.total_slots_eq _

theorem records_of_step (h : Crowd.Step (rules s.metered (Shift shift)) c c') :
    Records c.world c'.world (bodies c) (bodies c') :=
  Crowd.records_of_step pooling h

/-- The open responses are the idle ones and those that are read from. -/
theorem alive_eq (h : Crowd.Reachable (rules s.metered (Shift shift)) (Crowd.empty w₀.metered) c)
    (h₀ : w₀.pool = Pool.fresh) :
    c.world.net.alive = c.world.pool.idle.length + bodies c :=
  Crowd.alive_eq pooling h h₀ rfl

end PoolRead

end RemoteFile
