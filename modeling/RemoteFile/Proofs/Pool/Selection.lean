import RemoteFile.Proofs.Pool.Retry

/-!
# Which connection a read finds

A read that looks for a connection closes the stale idle ones first. Of the others it takes at most
one out of the pool, to read on or to close it for its slot, and it leaves all of them as they are,
up to their order: taking one out moves the last one into its place.

`Fetch.Finds` says which of the four answers of the pool a read gets and when. It says so of every
pool, be connections stale together, have the same number of bytes to skip, or were last used at the
same time.

Main statements:

* `Pool.Chosen.reuse_iff`, `Pool.Chosen.reserve_iff`, `Pool.Chosen.replace_iff`,
  `Pool.Chosen.wait_iff` : when a pool gives which answer.
* `Fetch.finds_connection` : what an attempt finds that looks for a connection.
-/

namespace RemoteFile

/-- What an answer takes out of the idle connections. -/
def Choice.taken : Choice → List Connection
  | .reuse c _ | .replace c => [c]
  | .reserve | .wait => []

/-- How many connections are closed to make room. -/
def Choice.closes : Choice → Nat
  | .replace _ => 1
  | .reuse _ _ | .reserve | .wait => 0

namespace Pool

variable {o : PoolOptions} {now : Nat} {p : Pool}

/-- The idle connections that were not unused for too long. -/
def recent (o : PoolOptions) (now : Nat) (p : Pool) : List Connection :=
  p.idle.filter fun c => (now - c.lastUsed) * Duration.nanosPerMilli ≤ o.staleAfter.nanos

/-- The slots that are in use once the stale connections are closed. -/
def liveAfterSweep (o : PoolOptions) (now : Nat) (p : Pool) : Nat :=
  p.live - (p.stale o now).length

theorem isStale_eq_false_iff {c : Connection} :
    isStale o now c = false ↔
      (now - c.lastUsed) * Duration.nanosPerMilli ≤ o.staleAfter.nanos := by
  simp [isStale]

theorem filter_not_stale : (p.idle.filter fun c => !isStale o now c) = p.recent o now := by
  refine List.filter_congr fun c _ => ?_
  rw [Bool.eq_iff_iff, Bool.not_eq_true', isStale_eq_false_iff, decide_eq_true_iff]

theorem sweep_eq : p.sweep o now =
    { p with idle := p.recent o now, live := p.liveAfterSweep o now } := by
  rw [sweep, filter_not_stale, liveAfterSweep]

/-- A read at a position can begin on an idle connection. -/
def Serves (o : PoolOptions) (offset : Nat) (p : Pool) : Prop :=
  ∃ c ∈ p.idle, ∃ n, c.skipFor offset o.maxSkip = some n

namespace Chosen

variable {offset : Nat} {q : Pool} {choice : Choice}

theorem idle (h : Chosen o offset p choice q) : (choice.taken ++ q.idle).Perm p.idle := by
  cases h with
  | reuse _ hidle | replace _ _ hidle => exact hidle.symm
  | reserve | wait => exact .refl _

theorem live (h : Chosen o offset p choice q) :
    q.live = p.live + if choice = .reserve then 1 else 0 := by
  cases h <;> rfl

theorem closed (h : Chosen o offset p choice q) : q.closed = p.closed := by
  cases h <;> rfl

theorem not_serves (hnone : ∀ c ∈ p.idle, c.skipFor offset o.maxSkip = none) :
    ¬ p.Serves o offset := by
  rintro ⟨c, hmem, n, hskip⟩
  rw [hnone c hmem] at hskip
  cases hskip

/-- A connection is used again exactly if one can be. -/
theorem reuse_iff (h : Chosen o offset p choice q) :
    (∃ c skip, choice = .reuse c skip) ↔ p.Serves o offset := by
  cases h with
  | @reuse c rest skip hskip hidle hleast =>
    exact iff_of_true ⟨c, skip, rfl⟩ ⟨c, hidle.mem_iff.2 List.mem_cons_self, skip, hskip⟩
  | reserve hnone | replace hnone => exact iff_of_false (by simp) (not_serves hnone)
  | wait hidle => exact iff_of_false (by simp) (by simp [Serves, hidle])

/-- A free slot is used exactly if no connection can be. -/
theorem reserve_iff (h : Chosen o offset p choice q) :
    choice = .reserve ↔ ¬ p.Serves o offset ∧ p.live < o.maxConns := by
  rw [← h.reuse_iff]
  cases h with
  | reuse => simp
  | reserve _ hroom => simp [hroom]
  | replace _ hfull | wait _ hfull => simp [hfull]

/-- A connection is closed exactly if none can be used and no slot is free. -/
theorem replace_iff (h : Chosen o offset p choice q) :
    (∃ c, choice = .replace c) ↔ ¬ p.Serves o offset ∧ o.maxConns ≤ p.live ∧ p.idle ≠ [] := by
  rw [← h.reuse_iff]
  cases h with
  | reuse => simp
  | reserve _ hroom => simp [hroom.not_ge]
  | replace _ hfull hidle =>
    have hne := List.ne_nil_of_mem (hidle.mem_iff.2 List.mem_cons_self)
    simp [hfull, hne]
  | wait hidle => simp [hidle]

/-- A read waits exactly if no connection is idle and no slot is free. -/
theorem wait_iff (h : Chosen o offset p choice q) :
    choice = .wait ↔ p.idle = [] ∧ o.maxConns ≤ p.live := by
  cases h with
  | reuse _ hidle | replace _ _ hidle =>
    have hne := List.ne_nil_of_mem (hidle.mem_iff.2 List.mem_cons_self)
    simp [hne]
  | reserve _ hroom => simp [hroom]
  | wait hidle hfull => simp [hidle, hfull]

theorem least {c : Connection} {skip : Nat} (h : Chosen o offset p (.reuse c skip) q) :
    c ∈ p.idle ∧ c.skipFor offset o.maxSkip = some skip ∧
      ∀ d ∈ p.idle, ∀ n, d.skipFor offset o.maxSkip = some n → skip ≤ n := by
  cases h with
  | reuse hskip hidle hleast => exact ⟨hidle.mem_iff.2 List.mem_cons_self, hskip, hleast⟩

theorem oldest {c : Connection} (h : Chosen o offset p (.replace c) q) :
    c ∈ p.idle ∧ ∀ d ∈ p.idle, c.lastUsed ≤ d.lastUsed := by
  cases h with
  | replace _ _ hidle hold => exact ⟨hidle.mem_iff.2 List.mem_cons_self, hold⟩

/-- A slot is taken from somebody, or waited for, only if there are no more slots. -/
theorem full (h : Chosen o offset p choice q)
    (hchoice : (∃ c, choice = .replace c) ∨ choice = .wait) : o.maxConns ≤ p.live := by
  rw [h.replace_iff, h.wait_iff] at hchoice
  exact hchoice.elim (fun hreplace => hreplace.2.1) fun hwait => hwait.2

end Chosen

end Pool

namespace Fetch

variable {σ τ : Type}

/-- How an attempt goes on with each answer of the pool. -/
inductive Shows (f : Fetch τ) :
    Choice → Turn (Fetch τ) (Except Failure (List UInt8)) → Prop
  /-- It reads on the idle connection. -/
  | reuse (c : Connection) (skip : Nat) :
      Shows f (.reuse c skip) (.moved { f with phase := .reading (.begun c f.offset f.len) })
  /-- It waits for a connection of its own. -/
  | reserve (id stop : Nat) (ticket : τ) (deadline : Nat) :
      Shows f .reserve (.moved { f with phase := .opening id stop ticket deadline })
  /-- It waits for a connection of its own, in the slot of another one. -/
  | replace (c : Connection) (id stop : Nat) (ticket : τ) (deadline : Nat) :
      Shows f (.replace c) (.moved { f with phase := .opening id stop ticket deadline })
  /-- It waits until the pool calls out. -/
  | wait (since : Nat) : Shows f .wait (.moved { f with phase := .parked since })

/-- An attempt that looks for a connection gets an answer of the pool. -/
structure Finds (s : Setting σ τ) (f : Fetch τ) (w : World σ) (choice : Choice)
    (t : Turn (Fetch τ) (Except Failure (List UInt8))) (w' : World σ) : Prop where
  /-- It goes on with the answer. -/
  shows : f.Shows choice t
  /-- The stale connections leave, and what the answer takes; the others stay as they are. -/
  idle : (choice.taken ++ w'.pool.idle).Perm (w.pool.recent s.options.pool w.now)
  /-- A connection is used again exactly if one can be used. -/
  reuses : (∃ c skip, choice = .reuse c skip) ↔ ∃ c, f.Usable s w c
  /-- It can be used itself, and no other one has less to skip. -/
  least : ∀ c skip, choice = .reuse c skip →
    f.Usable s w c ∧ skip = f.offset - c.cursor ∧ ∀ d, f.Usable s w d → skip ≤ f.offset - d.cursor
  /-- A free slot is used exactly if no connection can be. -/
  reserves : choice = .reserve ↔ (¬ ∃ c, f.Usable s w c) ∧
    w.pool.liveAfterSweep s.options.pool w.now < s.options.pool.maxConns
  /-- A connection is closed exactly if none can be used and no slot is free. -/
  replaces : (∃ c, choice = .replace c) ↔ (¬ ∃ c, f.Usable s w c) ∧
    s.options.pool.maxConns ≤ w.pool.liveAfterSweep s.options.pool w.now ∧
    w.pool.recent s.options.pool w.now ≠ []
  /-- It is one that was idle for the longest. -/
  oldest : ∀ c, choice = .replace c → c ∈ w.pool.recent s.options.pool w.now ∧
    ∀ d ∈ w.pool.recent s.options.pool w.now, c.lastUsed ≤ d.lastUsed
  /-- It waits exactly if there is nothing to close either. -/
  waits : choice = .wait ↔ w.pool.recent s.options.pool w.now = [] ∧
    s.options.pool.maxConns ≤ w.pool.liveAfterSweep s.options.pool w.now
  /-- Every slot is in use then, if there were not too many before. -/
  full : w.pool.live ≤ s.options.pool.maxConns → (∃ c, choice = .replace c) ∨ choice = .wait →
    w.pool.liveAfterSweep s.options.pool w.now = s.options.pool.maxConns
  /-- Only a free slot that is taken is one more in use. -/
  live : w'.pool.live =
    w.pool.liveAfterSweep s.options.pool w.now + if choice = .reserve then 1 else 0
  /-- The pool stays open. -/
  opened : w'.pool.closed = false
  /-- The connections that are closed are counted as evicted. -/
  evicted : w'.counters.connsEvicted =
    w.counters.connsEvicted + (w.pool.stale s.options.pool w.now).length + choice.closes

variable {s : Setting σ τ} {f : Fetch τ} {w w₁ w' : World σ}
  {t : Turn (Fetch τ) (Except Failure (List UInt8))} {choice : Choice} {q : Pool}

theorem serves_iff : (w.pool.sweep s.options.pool w.now).Serves s.options.pool f.offset ↔
    ∃ c, f.Usable s w c := by
  simp only [Pool.Serves, usable_iff]

theorem evicted_of_request (h : f.request s w = (t, w')) :
    w'.counters.connsEvicted = w.counters.connsEvicted := by
  simp only [request, World.issue_eq] at h
  cases h
  rfl

theorem evicted_sweep : (w.sweep s).counters.connsEvicted =
    w.counters.connsEvicted + (w.pool.stale s.options.pool w.now).length := by
  rw [World.sweep_eq]
  rfl

theorem finds_of_chosen
    (hq : Pool.Chosen s.options.pool f.offset (w.pool.sweep s.options.pool w.now) choice q)
    (hopen : w.pool.closed = false) (hshows : f.Shows choice t)
    (hpool : w'.pool = { q with nextId := w'.pool.nextId })
    (hevicted : w'.counters.connsEvicted =
      w.counters.connsEvicted + (w.pool.stale s.options.pool w.now).length + choice.closes) :
    Finds s f w choice t w' := by
  have hidle : w'.pool.idle = q.idle := by rw [hpool]
  have hlive : w'.pool.live = q.live := by rw [hpool]
  have hclosed : w'.pool.closed = q.closed := by rw [hpool]
  have hreserve := hq.reserve_iff
  have hreplace := hq.replace_iff
  have hwait := hq.wait_iff
  rw [serves_iff, Pool.sweep_eq] at hreserve hreplace
  rw [Pool.sweep_eq] at hwait
  refine
    { shows := hshows
      idle := ?_
      reuses := hq.reuse_iff.trans serves_iff
      least := ?_
      reserves := hreserve
      replaces := hreplace
      oldest := ?_
      waits := hwait
      full := ?_
      live := ?_
      opened := hclosed.trans (hq.closed.trans hopen)
      evicted := hevicted }
  · have hperm := hq.idle
    rwa [Pool.sweep_eq, ← hidle] at hperm
  · rintro c skip rfl
    obtain ⟨hmem, hskip, hleast⟩ := hq.least
    refine ⟨usable_iff.2 ⟨hmem, skip, hskip⟩, (Pool.skipFor_eq_some_iff.1 hskip).2.2.2, ?_⟩
    intro d hd
    obtain ⟨hmem', n, hskip'⟩ := usable_iff.1 hd
    rw [← (Pool.skipFor_eq_some_iff.1 hskip').2.2.2]
    exact hleast d hmem' n hskip'
  · rintro c rfl
    have hold := hq.oldest
    rwa [Pool.sweep_eq] at hold
  · intro hbound hchoice
    have hfull := hq.full hchoice
    rw [Pool.sweep_eq] at hfull
    exact Nat.le_antisymm (Nat.le_trans (Nat.sub_le _ _) hbound) hfull
  · rw [hlive, hq.live, Pool.sweep_eq]

/-- **Which connection a read finds.**  In every world, an attempt that looks for a connection finds
the pool closed, and leaves the world as it is. Or else the stale connections leave, exactly those
that were unused for longer than allowed, and the pool gives one of its four answers: an idle
connection exactly if there is one that does not lie behind the position, past it, or too far before
it, and then one that has the least to skip; otherwise a free slot; otherwise the slot of the
connection that was idle for the longest, which is closed; and nothing if no connection is idle. All
other idle connections stay in the pool as they are. -/
theorem finds_connection (hf : f.phase = .looking) (h : f.step s w = (t, w')) :
    (w.pool.closed = true → t = .done (.error .closed) ∧ w' = w) ∧
      (w.pool.closed = false → ∃ choice, Finds s f w choice t w') := by
  cases turned h with
  | refused _ hc => exact ⟨fun _ => ⟨rfl, rfl⟩, by simp [hc]⟩
  | @reuses c skip q _ hc hq =>
    refine ⟨by simp [hc], fun _ => ⟨.reuse c skip, ?_⟩⟩
    exact finds_of_chosen hq hc (.reuse c skip) rfl evicted_sweep
  | reserves _ hc hq hr =>
    refine ⟨by simp [hc], fun _ => ⟨.reserve, ?_⟩⟩
    have hevicted := (evicted_of_request hr).trans evicted_sweep
    obtain ⟨⟨deadline, rfl⟩, hpool, -⟩ := requested hr
    exact finds_of_chosen hq hc (.reserve ..) (hpool ▸ rfl) hevicted
  | @replaces c q t w' _ hc hq hr =>
    refine ⟨by simp [hc], fun _ => ⟨.replace c, ?_⟩⟩
    have hevicted := (evicted_of_request hr).trans
      (congrArg (· + 1) (evicted_sweep (s := s) (w := w)))
    obtain ⟨⟨deadline, rfl⟩, hpool, -⟩ := requested hr
    exact finds_of_chosen hq hc (.replace ..) (hpool ▸ rfl) hevicted
  | @parks q _ hc hq =>
    refine ⟨by simp [hc], fun _ => ⟨.wait, ?_⟩⟩
    exact finds_of_chosen hq hc (.wait _) rfl evicted_sweep
  -- in every other case the attempt does not look for a connection
  | rouses | dozes | expects | expires | denied | opens | wastes | reads | finishes | breaks =>
    simp_all only [reduceCtorEq]

/-- Four connections, of which each may skip up to ten bytes. -/
def fourConns : Setting Script.State Script.Ticket :=
  Script.setting 100 ⟨4, 10, .ofSeconds 10, none⟩ 1

/-- Every slot is in use. One connection was unused for twenty seconds, and of the others two have
the least to skip for a read at 45. -/
def fourIdle : World Script.State :=
  { Script.world [] with
    now := 20000
    pool := ⟨[⟨1, 45, 100, [], [], 0⟩, ⟨2, 40, 100, [], [], 15000⟩, ⟨3, 42, 100, [7], [], 12000⟩,
      ⟨4, 42, 100, [], [], 18000⟩], 4, false, 0, 5⟩ }

/-- The read takes the first of the two, although the stale one had nothing to skip; the last
connection moves into its place. -/
theorem finds_connection_at_45 :
    ∃ choice t w', step fourConns ⟨fourIdle.resolver.current, 45, 5, .looking⟩ fourIdle = (t, w') ∧
      w'.pool.idle.map Connection.id = [2, 4] ∧ w'.pool.live = 3 ∧
      Finds fourConns ⟨fourIdle.resolver.current, 45, 5, .looking⟩ fourIdle choice t w' := by
  obtain ⟨-, hopen⟩ := finds_connection (s := fourConns)
    (f := ⟨fourIdle.resolver.current, 45, 5, .looking⟩) (w := fourIdle) rfl rfl
  obtain ⟨choice, hfinds⟩ := hopen rfl
  exact ⟨choice, _, _, rfl, by decide +kernel, by decide +kernel, hfinds⟩

end Fetch

end RemoteFile
