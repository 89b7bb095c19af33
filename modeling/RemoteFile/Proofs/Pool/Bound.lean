import RemoteFile.Proofs.Transport.Meter
import RemoteFile.Proofs.Transport.Script

/-!
# The bound of a pool

What a pool says about its connections is true, and it keeps to its bound: as a count of slots, and
as a count of responses and requests that are open at the transport.

Main statement:

* `PoolRead.within_bound` : the count, the peak and the bound in every crowd that can be reached.
-/

namespace RemoteFile

namespace PoolRead

variable {σ τ : Type}

/-- **Slots are accounted for, and there are never too many connections.**  Whatever reads join,
take their turns, end and are dropped, and whenever the pool is closed: the count of connections is
the idle ones and the slots handed out, it is within the bound, and the peak is the greatest count
that there was. In the next step, whatever it is, nothing is taken off the count that is not there,
and if a range is requested, then the responses that are open at that moment and the requests under
way, this one included, are within the bound. -/
theorem within_bound {s : Setting σ τ} {shift : σ → σ → Prop} {w₀ : World σ}
    {visited : List (Crowd (World (Metered σ)) Wanted (PoolRead τ) (Except Failure (List UInt8)))}
    {c : Crowd (World (Metered σ)) Wanted (PoolRead τ) (Except Failure (List UInt8))}
    (h₀ : w₀.pool = Pool.fresh) (hpeak : w₀.counters.peakConns = 0)
    (h : Crowd.Path (rules s.metered (Metered.Shift shift)) (Crowd.empty w₀.metered) visited c) :
    c.world.pool.live = c.world.pool.idle.length + checkouts c ∧
      c.world.pool.live ≤ s.options.pool.maxConns ∧
      IsGreatest { n | ∃ v ∈ visited, v.world.pool.live = n } c.world.counters.peakConns ∧
      ∀ c', Crowd.Step (rules s.metered (Metered.Shift shift)) c c' →
        Pool.Deeds s.options.pool (c.world.pool, checkouts c) (c'.world.pool, checkouts c') ∧
          (c'.world.net.asked = c.world.net.asked ∨
            ∃ alive, c'.world.net.asked = alive :: c.world.net.asked ∧
              alive + calls c' ≤ s.options.pool.maxConns) := by
  have ha : Pool.Accounted s.options.pool c.world.pool (checkouts c) := accounted h.reachable h₀
  refine ⟨ha.live, ha.bound, (isGreatest_peak h h₀ hpeak).1, fun c' hs => ⟨?_, ?_⟩⟩
  · exact deeds_of_step hs ha
  · have ha' : Pool.Accounted s.options.pool c'.world.pool (checkouts c') :=
      accounted (h.reachable.tail hs) h₀
    have halive := alive_eq (h.reachable.tail hs) h₀
    refine (records_of_step hs).asked.imp_right fun hasked => ⟨_, hasked, ?_⟩
    -- the responses are idle or read from, so that with the requests they are the live slots
    have hlive := ha'.live
    have hbound := ha'.bound
    rw [checkouts_eq] at hlive
    omega

/-- A pool with one slot, in which a read asks for a connection and another one waits. -/
theorem within_bound_of_two :
    ∃ visited c, Crowd.Path
        (rules (Script.setting 4 ⟨1, 0, .ofSeconds 10, none⟩ 1).metered
          (Metered.Shift fun _ _ => False))
        (Crowd.empty (Script.world []).metered) visited c ∧
      c.world.net.asked = [0] ∧ calls c = 1 ∧ c.tasks.length = 2 ∧
      c.world.pool.live = c.world.pool.idle.length + checkouts c ∧ c.world.pool.live ≤ 1 ∧
      IsGreatest { n | ∃ v ∈ visited, v.world.pool.live = n } 1 := by
  have hplay : (Crowd.empty (Script.world []).metered).play
      (rules (Script.setting 4 ⟨1, 0, .ofSeconds 10, none⟩ 1).metered
        (Metered.Shift fun _ _ => False)) Script.twoReads = some _ := rfl
  obtain ⟨visited, hp⟩ := Crowd.path_of_play .nil hplay
  obtain ⟨hlive, hle, hgreatest, -⟩ := within_bound rfl rfl hp
  exact ⟨visited, _, hp, rfl, rfl, rfl, hlive, hle, hgreatest⟩

end PoolRead

end RemoteFile
