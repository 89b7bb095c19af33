import RemoteFile.Proofs.Pool.Ledger
import RemoteFile.Proofs.Transport.Script

/-!
# No call is missed

A read for which there is no connection and no slot waits until the pool calls out. It could wait
for ever if something became available without a call. `Pool.Tells` says of a change of a pool that
this does not happen: as long as the pool does not call, it stays `Pool.Full`. Every turn of an
attempt changes the pool like that, also where it frees slots silently by closing stale
connections, for a full pool has none.

Main statements:

* `Fetch.Manages.tells` : an attempt makes nothing available without a call.
* `PoolRead.no_missed_call` : a read that waits and was not called finds every slot handed out.
-/

namespace RemoteFile

namespace Pool

/-- Nothing can be had from the pool for now, as every slot is handed out. -/
structure Full (o : PoolOptions) (p : Pool) : Prop where
  /-- The pool is open. -/
  isOpen : p.closed = false
  /-- No connection is idle. -/
  idle : p.idle = []
  /-- No slot is free. -/
  live : o.maxConns ≤ p.live

/-- A change of a pool that makes nothing available without a call. -/
structure Tells (o : PoolOptions) (p q : Pool) : Prop where
  /-- Calls are not taken back. -/
  wakes : p.wakes ≤ q.wakes
  /-- Without a call, a full pool stays full. -/
  full : q.wakes = p.wakes → p.Full o → q.Full o

variable {o : PoolOptions} {p q r : Pool}

namespace Tells

theorem refl (p : Pool) : Tells o p p := ⟨Nat.le_refl _, fun _ h => h⟩

theorem of_eq (h : q = p) : Tells o p q := by
  rw [h]
  exact refl p

theorem of_lt (h : p.wakes < q.wakes) : Tells o p q :=
  ⟨Nat.le_of_lt h, fun heq => absurd heq (Nat.ne_of_gt h)⟩

theorem trans (h : Tells o p q) (h' : Tells o q r) : Tells o p r := by
  refine ⟨Nat.le_trans h.wakes h'.wakes, fun heq hfull => ?_⟩
  have hpq : q.wakes = p.wakes := by
    have := h.wakes
    have := h'.wakes
    omega
  exact h'.full (heq.trans hpq.symm) (h.full hpq hfull)

theorem sweep (p : Pool) (now : Nat) : Tells o p (p.sweep o now) := by
  refine ⟨Nat.le_refl _, fun _ hfull => ⟨hfull.isOpen, ?_, ?_⟩⟩
  · simp only [Pool.sweep, hfull.idle, List.filter_nil]
  · simp only [Pool.sweep, stale, hfull.idle, List.filter_nil, List.length_nil, Nat.sub_zero]
    exact hfull.live

theorem take {c : Connection} {rest : List Connection} (h : p.idle.Perm (c :: rest)) :
    Tells o p { p with idle := rest } := by
  refine ⟨Nat.le_refl _, fun _ hfull => ?_⟩
  rw [hfull.idle] at h
  cases h.nil_eq

theorem reserve (p : Pool) : Tells o p p.reserve :=
  ⟨Nat.le_refl _, fun _ hfull => ⟨hfull.isOpen, hfull.idle, Nat.le_succ_of_le hfull.live⟩⟩

theorem number (p : Pool) : Tells o p p.number.2 :=
  ⟨Nat.le_refl _, fun _ hfull => ⟨hfull.isOpen, hfull.idle, hfull.live⟩⟩

end Tells

end Pool

namespace Fetch

open Pool

variable {σ τ : Type} {s : Setting σ τ} {f f' : Fetch τ} {w w' : World σ}
  {t : Turn (Fetch τ) (Except Failure (List UInt8))}

/-- What a step of a task does to the pool makes nothing available without a call. -/
theorem Manages.tells {held held' : Option Nat} (h : Manages s w held w' held') :
    Tells s.options.pool w.pool w'.pool := by
  have hsweep : Tells s.options.pool w.pool (w.pool.sweep s.options.pool w.now) := .sweep _ _
  cases h with
  | leaves _ hpool => exact .of_eq hpool
  | sweeps hpool =>
    rw [hpool]
    exact hsweep
  | takes hidle hpool =>
    rw [hpool]
    exact hsweep.trans (.take hidle)
  | reserves hroom hpool =>
    rw [hpool]
    exact (hsweep.trans (.reserve _)).trans (.number _)
  | replaces hidle hpool =>
    rw [hpool]
    exact (hsweep.trans (.take hidle)).trans (.number _)
  | frees _ hpool | givesBack _ hpool =>
    rw [hpool]
    exact .of_lt (Nat.lt_succ_self _)

/-- The attempt waits, it has not heard more calls than there were, and if it was not called then
the pool is full. -/
def Heard (o : PoolOptions) (p : Pool) (f : Fetch τ) : Prop :=
  ∀ since, f.phase = .parked since → since ≤ p.wakes ∧ (since = p.wakes → p.Full o)

theorem Heard.tells {o : PoolOptions} {p q : Pool} (h : Heard o p f) (hq : Tells o p q) :
    Heard o q f := by
  intro since hf
  obtain ⟨hle, hfull⟩ := h since hf
  refine ⟨Nat.le_trans hle hq.wakes, fun heq => ?_⟩
  have hwakes := hq.wakes
  exact hq.full (by omega) (hfull (by omega))

theorem heard_step (h : f.step s w = (t, w')) (ht : t.next? = some f')
    (hf : Heard s.options.pool w.pool f) : Heard s.options.pool w'.pool f' := by
  have htells := (manages_step h).tells
  intro since hf'
  -- only two turns lead to waiting: one that finds nothing, and one that goes on waiting
  cases turned h with
  | parks hphase hc hq =>
    cases ht
    cases hf'
    cases hq with
    | wait hidle hfull => exact ⟨Nat.le_refl _, fun _ => ⟨hc, hidle, hfull⟩⟩
  | dozes hphase hlt =>
    cases ht
    exact hf.tells htells since hf'
  | expects hphase harr =>
    cases ht
    rw [hphase] at hf'
    cases hf'
  | reserves hphase hc hq hr | replaces hphase hc hq hr =>
    obtain ⟨⟨deadline, rfl⟩, -⟩ := requested hr
    cases ht
    cases hf'
  | reads hphase hr hnext ht' =>
    rw [ht'] at ht
    cases ht
    cases hf'
  | reuses | rouses | opens =>
    cases ht
    cases hf'
  | refused | expires | denied | wastes | finishes | breaks => cases ht

end Fetch

namespace PoolRead

variable {σ τ : Type} {s : Setting σ τ} {shift : σ → σ → Prop} {w₀ w w' : World σ}
  {c c' : Crowd (World σ) Wanted (PoolRead τ) (Except Failure (List UInt8))}

theorem Outside.tells (h : Outside s shift w w') : Pool.Tells s.options.pool w.pool w'.pool := by
  cases h with
  | pass millis w => exact .refl _
  | close w =>
    rw [World.pool_closePool]
    exact .of_lt (Nat.lt_succ_self _)
  | shift w h => exact .refl _

theorem heard (h : Crowd.Reachable (rules s shift) (Crowd.empty w₀) c) :
    ∀ f ∈ c.attempts attempt?, f.Heard s.options.pool c.world.pool := by
  refine h.attempts (I := fun w fs => ∀ f ∈ fs, f.Heard s.options.pool w.pool) attempting nofun
    (fun {l r o o' w w'} hfs hmove f hf => ?_)
    fun hfs hout f hf => (hfs f hf).tells (Outside.tells hout)
  -- the attempts beside the one that moves hear what it tells
  have hothers : f ∈ l ++ r → f.Heard s.options.pool w'.pool := fun hlr =>
    (hfs f (by simp only [List.mem_append] at hlr ⊢; tauto)).tells hmove.manages.tells
  by_cases hlr : f ∈ l ++ r
  · exact hothers hlr
  · have ho' : f ∈ o'.toList := by
      simp only [List.mem_append] at hf hlr
      tauto
    cases hmove with
    | aside hw => cases ho'
    | begins hphase hw =>
      rw [List.mem_singleton.1 ho']
      intro since hf
      rw [hphase] at hf
      cases hf
    | @goesOn f₀ f₁ t _ h ht =>
      rw [List.mem_singleton.1 ho']
      exact Fetch.heard_step h ht (hfs f₀ (by simp))
    | ends h hw | dropped hw => cases ho'

theorem step_of_attempt? {p : PoolRead τ} {f f' : Fetch τ} (hf : p.attempt? = some f)
    (h : f.step s w = (.moved f', w')) :
    ∃ p', p.step s w = (.moved p', w') ∧ p'.attempt? = some f' := by
  obtain ⟨offset, len, budget, phase⟩ := p
  cases phase with
  | attempting used a =>
    cases hf
    have hstep : (Fetch.attempts s offset len).step f w = (.moved f', w') := h
    refine ⟨⟨offset, len, budget, .attempting used f'⟩, ?_, rfl⟩
    simp only [step, Operation.step, hstep]
  | choosing | refreshing r | renewing r | resting due => cases hf

theorem mem_attempts {k : Wanted} {p : PoolRead τ} (hp : (k, p) ∈ c.tasks) {f : Fetch τ}
    (hf : p.attempt? = some f) : f ∈ c.attempts attempt? :=
  List.mem_filterMap.2 ⟨(k, p), hp, hf⟩

/-- A read that waits and was not called finds every slot handed out. -/
theorem full_of_parked (h : Crowd.Reachable (rules s shift) (Crowd.empty w₀) c)
    (h₀ : w₀.pool = Pool.fresh) {f : Fetch τ} (hf : f ∈ c.attempts attempt?) {since : Nat}
    (hparked : f.phase = .parked since) (hcalled : ¬ since < c.world.pool.wakes) :
    c.world.pool.closed = false ∧ c.world.pool.idle = [] ∧
      c.world.pool.live = s.options.pool.maxConns ∧ checkouts c = s.options.pool.maxConns := by
  obtain ⟨hle, hfull⟩ := heard h f hf since hparked
  have hp : c.world.pool.Full s.options.pool :=
    hfull (Nat.le_antisymm hle (Nat.le_of_not_lt hcalled))
  have ha : Pool.Accounted s.options.pool c.world.pool (checkouts c) := accounted h h₀
  have hlive := ha.live
  rw [hp.idle, List.length_nil, Nat.zero_add] at hlive
  have heq : c.world.pool.live = s.options.pool.maxConns := Nat.le_antisymm ha.bound hp.live
  exact ⟨hp.isOpen, hp.idle, heq, hlive.symm.trans heq⟩

/-- **No call is missed.**  Whatever reads join, take their turns, end and are dropped, and whenever
the pool is closed: if a read waits and the pool has not called since it looked, then the pool is
open, no connection is idle, and exactly as many slots are handed out as there may be. So if the
pool is closed, a connection is idle, a slot is free or no read holds one, then a read that waits
was called, and looks again at its next turn. -/
theorem no_missed_call (hmax : 1 ≤ s.options.pool.maxConns)
    (h : Crowd.Reachable (rules s shift) (Crowd.empty w₀) c) (h₀ : w₀.pool = Pool.fresh)
    {k : Wanted} {p : PoolRead τ} (hp : (k, p) ∈ c.tasks) {f : Fetch τ} (hf : p.attempt? = some f)
    {since : Nat} (hparked : f.phase = .parked since) :
    (¬ since < c.world.pool.wakes →
      c.world.pool.closed = false ∧ c.world.pool.idle = [] ∧
        checkouts c = s.options.pool.maxConns) ∧
    (c.world.pool.closed = true ∨ c.world.pool.idle ≠ [] ∨
        c.world.pool.live < s.options.pool.maxConns ∨ checkouts c = 0 →
      ∃ p', p.step s c.world = (.moved p', c.world) ∧
        p'.attempt? = some { f with phase := .looking }) := by
  have hmem := mem_attempts hp hf
  refine ⟨fun hcalled => ?_, fun hany => ?_⟩
  · obtain ⟨hopen, hidle, -, hout⟩ := full_of_parked h h₀ hmem hparked hcalled
    exact ⟨hopen, hidle, hout⟩
  · have hcalled : since < c.world.pool.wakes := by
      by_contra hcalled
      obtain ⟨hopen, hidle, hlive, hout⟩ := full_of_parked h h₀ hmem hparked hcalled
      -- a full pool is none of the four
      rcases hany with hclosed | hany | hfree | hnone
      · rw [hopen] at hclosed
        cases hclosed
      · exact hany hidle
      · omega
      · omega
    refine step_of_attempt? hf ?_
    simp only [Fetch.step, hparked, if_pos hcalled]

/-- A pool with one slot that one read holds while another one waits for it. -/
theorem no_missed_call_of_two :
    ∃ c p f, Crowd.Reachable
        (rules (Script.setting 4 ⟨1, 0, .ofSeconds 10, none⟩ 1) fun _ _ => False)
        (Crowd.empty (Script.world [])) c ∧
      c.tasks[1]? = some (⟨1, 1⟩, p) ∧ p.attempt? = some f ∧ f.phase = .parked 0 ∧
      c.world.pool.wakes = 0 ∧ c.world.pool.idle = [] ∧ checkouts c = 1 := by
  have hplay : (Crowd.empty (Script.world [])).play
      (rules (Script.setting 4 ⟨1, 0, .ofSeconds 10, none⟩ 1) fun _ _ => False)
      Script.twoReads = some _ := rfl
  obtain ⟨visited, hp⟩ := Crowd.path_of_play .nil hplay
  obtain ⟨hfull, -⟩ := no_missed_call (Nat.le_refl 1) hp.reachable rfl (k := ⟨1, 1⟩) (p := _)
    (List.mem_cons_of_mem _ List.mem_cons_self) (f := _) rfl (rfl : _ = Fetch.Phase.parked 0)
  obtain ⟨-, hidle, hout⟩ := hfull (Nat.lt_irrefl 0)
  exact ⟨_, _, _, hp.reachable, rfl, rfl, rfl, rfl, hidle, hout⟩

end PoolRead

end RemoteFile
