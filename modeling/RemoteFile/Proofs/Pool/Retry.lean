import RemoteFile.Proofs.Pool.Wakeup

/-!
# Which connection serves an attempt

An attempt that looks for a connection does not know whether it is the first one of its read or
follows one that failed. It takes an idle connection whenever there is one that can get to its
position, and requests a connection of its own only if there is none. So a read whose first
attempt failed on a dead connection may use up its other attempts on further dead connections that
were idle.

Main statements:

* `PoolRead.served_by_idle_or_own` : when an attempt is served by an idle connection, and when by
  one of its own.
* `PoolRead.repeated_attempt_takes_idle` : a read that fails as its second attempt takes an idle
  connection, where a request would have served it.
-/

namespace RemoteFile

namespace Fetch

variable {σ τ : Type} {s : Setting σ τ} {f : Fetch τ} {w : World σ}

/-- The connection is idle, not stale, and not too far before the position of the attempt. -/
structure Usable (s : Setting σ τ) (f : Fetch τ) (w : World σ) (c : Connection) : Prop where
  /-- Nobody uses it. -/
  idle : c ∈ w.pool.idle
  /-- It was used not too long ago. -/
  recent : Pool.isStale s.options.pool w.now c = false
  /-- It has not passed the position. -/
  cursor : c.cursor ≤ f.offset
  /-- It does not end before. -/
  stop : f.offset < c.stop
  /-- It has not too much to skip. -/
  skip : f.offset - c.cursor ≤ s.options.pool.maxSkip

/-- The attempt is served by a connection that was idle, and requests nothing. -/
def TakesIdle (s : Setting σ τ) (f : Fetch τ) (w : World σ) : Prop :=
  ∃ r w' new, f.step s w = (.moved { f with phase := .reading r }, w') ∧
    r.conn ∈ w.pool.idle ∧ w'.journal = new ++ w.journal ∧ ∀ call, Event.call call ∉ new

/-- The attempt requests a connection of its own. -/
def Asks (s : Setting σ τ) (f : Fetch τ) (w : World σ) : Prop :=
  ∃ id stop ticket deadline w' new,
    f.step s w = (.moved { f with phase := .opening id stop ticket deadline }, w') ∧
      w'.journal = new ++ w.journal ∧
      .call (.openRange f.source.url (ByteRange.between f.offset stop)) ∈ new

theorem usable_iff {c : Connection} :
    f.Usable s w c ↔ c ∈ (w.pool.sweep s.options.pool w.now).idle ∧
      ∃ n, c.skipFor f.offset s.options.pool.maxSkip = some n := by
  simp only [Pool.sweep, List.mem_filter, Bool.not_eq_true', Pool.skipFor_eq_some_iff]
  constructor
  · intro h
    exact ⟨⟨h.idle, h.recent⟩, _, h.cursor, h.stop, h.skip, rfl⟩
  · rintro ⟨⟨hidle, hrecent⟩, n, hcursor, hstop, hskip, -⟩
    exact ⟨hidle, hrecent, hcursor, hstop, hskip⟩

theorem not_usable (hnone : ∀ c ∈ (w.pool.sweep s.options.pool w.now).idle,
    c.skipFor f.offset s.options.pool.maxSkip = none) : ¬ ∃ c, f.Usable s w c := by
  rintro ⟨c, hc⟩
  obtain ⟨hidle, n, hskip⟩ := usable_iff.1 hc
  rw [hnone c hidle] at hskip
  cases hskip

/-- What comes of looking for a connection, and why. -/
inductive Look (s : Setting σ τ) (f : Fetch τ) (w : World σ) : Prop
  /-- The pool is closed. -/
  | refused (hc : w.pool.closed = true) (h : f.step s w = (.done (.error .closed), w))
  /-- An idle connection is taken. -/
  | takes (hc : w.pool.closed = false) (hu : ∃ c, f.Usable s w c) (h : f.TakesIdle s w)
  /-- A connection is requested. -/
  | asks (hc : w.pool.closed = false) (hu : ¬ ∃ c, f.Usable s w c)
      (hroom : (w.pool.sweep s.options.pool w.now).live < s.options.pool.maxConns ∨
        (w.pool.sweep s.options.pool w.now).idle ≠ []) (h : f.Asks s w)
  /-- Every slot is handed out. -/
  | parks (hc : w.pool.closed = false) (hu : ¬ ∃ c, f.Usable s w c)
      (hfull : s.options.pool.maxConns ≤ (w.pool.sweep s.options.pool w.now).live)
      (hidle : (w.pool.sweep s.options.pool w.now).idle = [])
      (h : ∃ since w', f.step s w = (.moved { f with phase := .parked since }, w'))

theorem not_call_mem (notices : List Notice) (call : Call) :
    Event.call call ∉ notices.map Event.notice := by
  rw [List.mem_map]
  rintro ⟨n, -, hn⟩
  cases hn

theorem asks_of_request {w₁ w' : World σ} {t : Turn (Fetch τ) (Except Failure (List UInt8))}
    (h : f.step s w = (t, w')) (hr : f.request s w₁ = (t, w'))
    (hw : ∃ new, w₁.journal = new ++ w.journal) : f.Asks s w := by
  obtain ⟨⟨deadline, rfl⟩, -, -, -, notices, hjournal⟩ := requested hr
  obtain ⟨new, hnew⟩ := hw
  refine ⟨_, rangeStop f.offset s.size s.options.pool.maxRangeLen, _, deadline, w',
    notices.map Event.notice ++ .call (.openRange f.source.url (ByteRange.between f.offset
      (rangeStop f.offset s.size s.options.pool.maxRangeLen))) :: new, h, ?_, ?_⟩
  · rw [hjournal, hnew, List.append_assoc]
    rfl
  · exact List.mem_append_right _ List.mem_cons_self

/-- **What comes of looking for a connection.** -/
theorem looked (hf : f.phase = .looking) : Look s f w := by
  obtain ⟨notices, hsweep⟩ := w.journal_sweep s
  rcases h : f.step s w with ⟨t, w'⟩
  cases turned h with
  | refused _ hc => exact .refused hc h
  | @reuses c skip q _ hc hq =>
    cases hq with
    | reuse hskip hidle hleast =>
      have hmem : c ∈ (w.pool.sweep s.options.pool w.now).idle :=
        hidle.mem_iff.2 List.mem_cons_self
      have hc' : f.Usable s w c := usable_iff.2 ⟨hmem, skip, hskip⟩
      refine .takes hc ⟨c, hc'⟩ ⟨.begun c f.offset f.len, _,
        .notice (.reusing c.id f.offset skip) :: notices.map Event.notice, h, hc'.idle, ?_, ?_⟩
      · exact congrArg (Event.notice (.reusing c.id f.offset skip) :: ·) hsweep
      · intro call hcall
        rcases List.mem_cons.1 hcall with hcall | hcall
        · cases hcall
        · exact not_call_mem notices call hcall
  | reserves _ hc hq hr =>
    cases hq with
    | reserve hnone hroom =>
      exact .asks hc (not_usable hnone) (.inl hroom) (asks_of_request h hr ⟨_, hsweep⟩)
  | @replaces c q t w' _ hc hq hr =>
    cases hq with
    | replace hnone hfull hidle hold =>
      have hne : (w.pool.sweep s.options.pool w.now).idle ≠ [] := fun hnil => by
        rw [hnil] at hidle
        cases hidle.nil_eq
      refine .asks hc (not_usable hnone) (.inr hne) (asks_of_request h hr
        ⟨.notice (.evicting c.id c.cursor) :: notices.map Event.notice, ?_⟩)
      exact congrArg (Event.notice (.evicting c.id c.cursor) :: ·) hsweep
  | parks _ hc hq =>
    cases hq with
    | wait hidle hfull =>
      refine .parks hc (not_usable ?_) hfull hidle ⟨_, _, h⟩
      rw [hidle]
      exact nofun
  -- in every other case the attempt does not look for a connection
  | rouses | dozes | expects | expires | denied | opens | wastes | reads | finishes | breaks =>
    simp_all only [reduceCtorEq]

theorem takesIdle_iff (hf : f.phase = .looking) :
    f.TakesIdle s w ↔ w.pool.closed = false ∧ ∃ c, f.Usable s w c := by
  have hl : Look s f w := looked hf
  constructor
  · rintro ⟨r, w₁, new, hstep, -⟩
    cases hl with
    | refused hc h => rw [h] at hstep; cases hstep
    | takes hc hu h => exact ⟨hc, hu⟩
    | asks hc hu hroom h =>
      obtain ⟨_, _, _, _, _, _, h, -⟩ := h
      rw [h] at hstep
      cases hstep
    | parks hc hu hfull hidle h =>
      obtain ⟨_, _, h⟩ := h
      rw [h] at hstep
      cases hstep
  · rintro ⟨hopen, hany⟩
    cases hl with
    | refused hc h => rw [hopen] at hc; cases hc
    | takes hc hu h => exact h
    | asks hc hu hroom h | parks hc hu hfull hidle h => exact absurd hany hu

theorem asks_iff (hf : f.phase = .looking) :
    f.Asks s w ↔ w.pool.closed = false ∧ (¬ ∃ c, f.Usable s w c) ∧
      ((w.pool.sweep s.options.pool w.now).live < s.options.pool.maxConns ∨
        (w.pool.sweep s.options.pool w.now).idle ≠ []) := by
  have hl : Look s f w := looked hf
  constructor
  · rintro ⟨id, stop, ticket, deadline, w₁, new, hstep, -⟩
    cases hl with
    | refused hc h => rw [h] at hstep; cases hstep
    | takes hc hu h =>
      obtain ⟨_, _, _, h, -⟩ := h
      rw [h] at hstep
      cases hstep
    | asks hc hu hroom h => exact ⟨hc, hu, hroom⟩
    | parks hc hu hfull hidle h =>
      obtain ⟨_, _, h⟩ := h
      rw [h] at hstep
      cases hstep
  · rintro ⟨hopen, hnone, hroom⟩
    cases hl with
    | refused hc h => rw [hopen] at hc; cases hc
    | takes hc hu h => exact absurd hu hnone
    | asks hc hu hroom h => exact h
    | parks hc hu hfull hidle h =>
      rcases hroom with hroom | hroom
      · omega
      · exact absurd hidle hroom

end Fetch

namespace PoolRead

variable {σ τ : Type} {s : Setting σ τ} {shift : σ → σ → Prop} {w₀ : World σ}
  {c : Crowd (World σ) Wanted (PoolRead τ) (Except Failure (List UInt8))}

/-- **Which connection serves an attempt.**  Whenever an attempt of a read looks for a connection,
be it the first one or one that follows a failure: it is served by an idle connection, without a
request, exactly if the pool is open and one is idle that is not stale, has not passed the position
and has not too much to skip; and it requests a connection of its own exactly if the pool is open,
there is no such idle connection, and not every slot is handed out. -/
theorem served_by_idle_or_own (h : Crowd.Reachable (rules s shift) (Crowd.empty w₀) c)
    (h₀ : w₀.pool = Pool.fresh) {f : Fetch τ} (hlook : f.phase = .looking) :
    (f.TakesIdle s c.world ↔ c.world.pool.closed = false ∧ ∃ conn, f.Usable s c.world conn) ∧
    (f.Asks s c.world ↔ c.world.pool.closed = false ∧ (¬ ∃ conn, f.Usable s c.world conn) ∧
      checkouts c < s.options.pool.maxConns) := by
  refine ⟨Fetch.takesIdle_iff hlook, ?_⟩
  rw [Fetch.asks_iff hlook]
  have ha : Pool.Accounted s.options.pool c.world.pool (checkouts c) := accounted h h₀
  have hs := (Fetch.deeds_sweep ha).accounted ha
  have hlive := hs.live
  have hbound := hs.bound
  -- either every connection is handed out, or an idle one can be closed for its slot
  have hroom : (c.world.pool.sweep s.options.pool c.world.now).live < s.options.pool.maxConns ∨
      (c.world.pool.sweep s.options.pool c.world.now).idle ≠ [] ↔
        checkouts c < s.options.pool.maxConns := by
    rw [← List.length_pos_iff]
    omega
  rw [hroom]

/-! ### A read that fails on two dead connections -/

/-- Two responses that break off after two bytes, and one that is not asked for. -/
def brokenOff : World Script.State :=
  Script.world [[.chunk [20, 21]], [.chunk [0, 1]], [.chunk [22, 23]]]

/-- A pool of four connections that skips up to forty bytes and makes two attempts for a read. -/
def twoAttempts : Setting Script.State Script.Ticket :=
  Script.setting 40 ⟨4, 40, .ofSeconds 10, none⟩ 2

/-- Reads at 20, at 0 and at 22, up to where the last one begins its second attempt. -/
def threeReads : List (Crowd.Deed Wanted) :=
  [.join ⟨20, 2⟩, .turn 0, .turn 0, .turn 0, .turn 0, .turn 0,
    .join ⟨0, 2⟩, .turn 0, .turn 0, .turn 0, .turn 0, .turn 0,
    .join ⟨22, 2⟩, .turn 0, .turn 0, .turn 0, .turn 0]

/-- What is seen of a crowd of reads: the time, the pool, and for each read how many attempts it
has begun and where it looks for a connection. -/
def seen (c : Crowd (World σ) Wanted (PoolRead τ) (Except Failure (List UInt8))) :
    Nat × Pool × List (Nat × Option Nat) :=
  (c.world.now, c.world.pool, c.tasks.map fun x =>
    (x.2.operation.budget.attempts, x.2.attempt?.bind fun f =>
      match f.phase with
      | .looking => some f.offset
      | .parked _ | .opening _ _ _ _ | .reading _ => none))

/-- The second attempt at 22 is about to look, and a connection is idle twenty bytes before. -/
theorem reachable_threeReads :
    ∃ c k p f conn, Crowd.Reachable (rules twoAttempts fun _ _ => False) (Crowd.empty brokenOff) c ∧
      (k, p) ∈ c.tasks ∧ p.operation.budget.attempts = 2 ∧ p.attempt? = some f ∧
      f.phase = .looking ∧ c.world.pool.closed = false ∧ f.Usable twoAttempts c.world conn := by
  have hplay : ((Crowd.empty brokenOff).play (rules twoAttempts fun _ _ => False)
      threeReads).map seen =
        some (0, ⟨[⟨2, 2, 40, [], [], 0⟩], 1, false, 3, 3⟩, [(2, some 22)]) := by
    decide +kernel
  obtain ⟨c, hreach, hseen⟩ := Crowd.reachable_of_play seen hplay
  simp only [seen, Prod.mk.injEq] at hseen
  obtain ⟨hnow, hpool, htasks⟩ := hseen
  obtain ⟨⟨k, p⟩, hp, hx⟩ := List.map_eq_singleton_iff.1 htasks
  simp only [Prod.mk.injEq] at hx
  obtain ⟨f, hf, hlook⟩ := Option.bind_eq_some_iff.1 hx.2
  split at hlook
  · rename_i hphase
    have hoffset : f.offset = 22 := Option.some.inj hlook
    have husable : f.Usable twoAttempts c.world ⟨2, 2, 40, [], [], 0⟩ := by
      refine ⟨?_, ?_, ?_, ?_, ?_⟩
      · rw [hpool]
        exact List.mem_singleton_self _
      · rw [hnow]
        rfl
      · rw [hoffset]
        decide
      · rw [hoffset]
        decide
      · rw [hoffset]
        decide
    refine ⟨c, k, p, f, _, hreach, ?_, hx.1, hf, hphase, ?_, husable⟩
    · rw [hp]
      exact List.mem_singleton_self _
    · rw [hpool]
  all_goals cases hlook

/-- The attempt at 22 is served by the connection that is idle. -/
theorem served_by_idle_or_own_at_22 :
    ∃ c f, Crowd.Reachable (rules twoAttempts fun _ _ => False) (Crowd.empty brokenOff) c ∧
      f ∈ c.attempts attempt? ∧ f.phase = .looking ∧ f.TakesIdle twoAttempts c.world ∧
      ¬ f.Asks twoAttempts c.world := by
  obtain ⟨c, k, p, f, conn, hreach, hp, -, hf, hlook, hopen, husable⟩ := reachable_threeReads
  obtain ⟨htakes, hasks⟩ := served_by_idle_or_own hreach rfl hlook
  exact ⟨c, f, hreach, mem_attempts hp hf, hlook, htakes.2 ⟨hopen, conn, husable⟩,
    fun h => (hasks.1 h).2.1 ⟨conn, husable⟩⟩

/-- Every attempt that follows a failed one of its read is served by a connection of its own. -/
def FreshRetries (s : Setting σ τ) (shift : σ → σ → Prop) (w₀ : World σ) : Prop :=
  ∀ c k p f, Crowd.Reachable (rules s shift) (Crowd.empty w₀) c → (k, p) ∈ c.tasks →
    p.attempt? = some f → 2 ≤ p.operation.budget.attempts → f.phase = .looking →
    ¬ f.TakesIdle s c.world

/-- **A second attempt takes an idle connection.**  The third read finds its first connection dead,
takes another one that is idle and dead as well, and has no attempt left, so that it fails without
a request, although the next request would have served it. -/
theorem repeated_attempt_takes_idle :
    ¬ FreshRetries twoAttempts (fun _ _ => False) brokenOff ∧
      ∃ c, Crowd.Reachable (rules twoAttempts fun _ _ => False) (Crowd.empty brokenOff) c ∧
        c.results.head?.map Prod.snd = some (.error (.exhausted 2 (.shortRead 40 2))) ∧
        c.world.counters.requests = 2 ∧ c.world.net.ranges.length = 1 := by
  constructor
  · intro h
    obtain ⟨c, k, p, f, conn, hreach, hp, hattempts, hf, hlook, hopen, husable⟩ :=
      reachable_threeReads
    exact h c k p f hreach hp hf hattempts.ge hlook
      ((Fetch.takesIdle_iff hlook).2 ⟨hopen, conn, husable⟩)
  · have hplay : ((Crowd.empty brokenOff).play (rules twoAttempts fun _ _ => False)
        (threeReads ++ [.turn 0, .turn 0])).map (fun c => (c.results.head?.map Prod.snd,
          c.world.counters.requests, c.world.net.ranges.length)) =
        some (some (.error (.exhausted 2 (.shortRead 40 2))), 2, 1) := by
      decide +kernel
    obtain ⟨c, hreach, hseen⟩ := Crowd.reachable_of_play _ hplay
    simp only [Prod.mk.injEq] at hseen
    exact ⟨c, hreach, hseen⟩

end PoolRead

end RemoteFile
