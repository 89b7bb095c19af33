import RemoteFile.Proofs.Connection.Read
import RemoteFile.Proofs.Crowd

/-!
# What a turn of an attempt does

`Fetch.Turned` lists everything that one turn of an attempt to read through the pool comes to: how
it looks for a connection, waits for one, opens one and reads on it, each case with its reason and
with the world that it leaves.

Main statement:

* `Fetch.turned` : a turn of an attempt is one of those that `Fetch.Turned` lists.
-/

namespace RemoteFile

namespace Fetch

variable {σ τ : Type}

/-- What a turn of an attempt comes to. -/
inductive Turned (s : Setting σ τ) (f : Fetch τ) (w : World σ) :
    Turn (Fetch τ) (Except Failure (List UInt8)) → World σ → Prop
  /-- The pool is closed. -/
  | refused (hf : f.phase = .looking) (hc : w.pool.closed = true) :
      Turned s f w (.done (.error .closed)) w
  /-- An idle connection is taken. -/
  | reuses {c : Connection} {skip : Nat} {q : Pool} (hf : f.phase = .looking)
      (hc : w.pool.closed = false)
      (hq : Pool.Chosen s.options.pool f.offset (w.pool.sweep s.options.pool w.now)
        (.reuse c skip) q) :
      Turned s f w (.moved { f with phase := .reading (.begun c f.offset f.len) })
        ((((w.sweep s).manage fun _ => q).count Counters.reused).note
          (.reusing c.id f.offset skip))
  /-- A free slot is taken, and a connection asked for. -/
  | reserves {q : Pool} {t : Turn (Fetch τ) (Except Failure (List UInt8))} {w' : World σ}
      (hf : f.phase = .looking) (hc : w.pool.closed = false)
      (hq : Pool.Chosen s.options.pool f.offset (w.pool.sweep s.options.pool w.now) .reserve q)
      (h : f.request s (((w.sweep s).manage fun _ => q).count (·.lived q.live)) = (t, w')) :
      Turned s f w t w'
  /-- The slot of an idle connection is taken, and a connection asked for. -/
  | replaces {c : Connection} {q : Pool} {t : Turn (Fetch τ) (Except Failure (List UInt8))}
      {w' : World σ} (hf : f.phase = .looking) (hc : w.pool.closed = false)
      (hq : Pool.Chosen s.options.pool f.offset (w.pool.sweep s.options.pool w.now)
        (.replace c) q)
      (h : f.request s (((w.sweep s).manage fun _ => q).evict s c) = (t, w')) :
      Turned s f w t w'
  /-- Every slot is in use. -/
  | parks {q : Pool} (hf : f.phase = .looking) (hc : w.pool.closed = false)
      (hq : Pool.Chosen s.options.pool f.offset (w.pool.sweep s.options.pool w.now) .wait q) :
      Turned s f w (.moved { f with phase := .parked q.wakes })
        (((w.sweep s).manage fun _ => q).note (.waiting f.offset))
  /-- The pool has called out. -/
  | rouses {since : Nat} (hf : f.phase = .parked since) (h : since < w.pool.wakes) :
      Turned s f w (.moved { f with phase := .looking }) w
  /-- The pool has not called out. -/
  | dozes {since : Nat} (hf : f.phase = .parked since) (h : ¬ since < w.pool.wakes) :
      Turned s f w (.waits f none) w
  /-- The response is not there yet. -/
  | expects {id stop deadline : Nat} {ticket : τ} {wake : Option Nat}
      (hf : f.phase = .opening id stop ticket deadline)
      (h : s.net.arrival ticket (some deadline) w.now = .pending wake) :
      Turned s f w (.waits f wake) w
  /-- The response is too late. -/
  | expires {id stop deadline : Nat} {ticket : τ}
      (hf : f.phase = .opening id stop ticket deadline)
      (h : s.net.arrival ticket (some deadline) w.now = .late) :
      Turned s f w (.done (.error (noResponse s.options.timeouts.response))) w.freeSlot
  /-- The request has failed. -/
  | denied {id stop deadline : Nat} {ticket : τ} {e : Failure} {w₁ : World σ}
      (hf : f.phase = .opening id stop ticket deadline)
      (h : w.collect s ticket = (.error e, w₁)) :
      Turned s f w (.done (.error e)) w₁.freeSlot
  /-- The response is there. -/
  | opens {id stop deadline : Nat} {ticket : τ} {body : Body} {w₁ : World σ}
      (hf : f.phase = .opening id stop ticket deadline)
      (h : w.collect s ticket = (.ok body, w₁)) (hstop : f.offset < stop) :
      Turned s f w
        (.moved { f with
          phase := .reading (.begun (.opened id f.offset stop body w₁.now) f.offset f.len) })
        ((w₁.count Counters.opened).note (.opened id f.offset stop f.source.generation))
  /-- The response is there, but nothing was asked for. -/
  | wastes {id stop deadline : Nat} {ticket : τ} {body : Body} {e : Failure} {w₁ : World σ}
      (hf : f.phase = .opening id stop ticket deadline)
      (h : w.collect s ticket = (.ok body, w₁)) (hstop : stop ≤ f.offset) :
      Turned s f w (.done (.error e))
        (((w₁.count Counters.opened).note (.opened id f.offset stop f.source.generation)).giveUp s
          (.opened id f.offset stop body w₁.now))
  /-- The read goes on. -/
  | reads {r r' : Reading} {tr : Turn Reading (Except Failure (List UInt8) × Connection)}
      {t : Turn (Fetch τ) (Except Failure (List UInt8))} {w' : World σ}
      (hf : f.phase = .reading r) (h : r.step s.options.timeouts.idle w = (tr, w'))
      (hr : tr.next? = some r') (ht : t.next? = some { f with phase := .reading r' }) :
      Turned s f w t w'
  /-- The read succeeds. -/
  | finishes {r : Reading} {bytes : List UInt8} {c : Connection} {w₁ : World σ}
      (hf : f.phase = .reading r)
      (h : r.step s.options.timeouts.idle w = (.done (.ok bytes, c), w₁)) :
      Turned s f w (.done (.ok bytes)) (w₁.giveBack s c)
  /-- The read fails. -/
  | breaks {r : Reading} {e : Failure} {c : Connection} {w₁ : World σ}
      (hf : f.phase = .reading r)
      (h : r.step s.options.timeouts.idle w = (.done (.error e, c), w₁)) :
      Turned s f w (.done (.error e)) (w₁.giveUp s c)

variable {s : Setting σ τ} {f : Fetch τ} {w w' : World σ}
  {t : Turn (Fetch τ) (Except Failure (List UInt8))}

/-- What a request for a connection does. -/
structure Requested (s : Setting σ τ) (f : Fetch τ) (w : World σ)
    (t : Turn (Fetch τ) (Except Failure (List UInt8))) (w' : World σ) : Prop where
  /-- The attempt waits for the answer to its own request. -/
  turn : ∃ deadline, t = .moved { f with
    phase := .opening w.pool.nextId (rangeStop f.offset s.size s.options.pool.maxRangeLen)
      (s.net.send w.now (.openRange f.source.url (ByteRange.between f.offset
        (rangeStop f.offset s.size s.options.pool.maxRangeLen))) w.net).1 deadline }
  /-- The connection gets a number. -/
  pool : w'.pool = w.pool.number.2
  /-- The request is sent. -/
  net : w'.net = (s.net.send w.now (.openRange f.source.url (ByteRange.between f.offset
    (rangeStop f.offset s.size s.options.pool.maxRangeLen))) w.net).2.1
  /-- No connection is counted. -/
  peak : w'.counters.peakConns = w.counters.peakConns
  /-- The request is entered into the journal. -/
  journal : ∃ notices : List Notice, w'.journal = notices.map Event.notice ++
    .call (.openRange f.source.url (ByteRange.between f.offset
      (rangeStop f.offset s.size s.options.pool.maxRangeLen))) :: w.journal

theorem requested (h : f.request s w = (t, w')) : Requested s f w t w' := by
  simp only [request, World.issue_eq] at h
  cases h
  exact ⟨⟨_, rfl⟩, rfl, rfl, rfl, ⟨(s.net.send _ _ _).2.2.reverse, by
    rw [List.map_reverse]
    rfl⟩⟩

theorem turned_look (hf : f.phase = .looking) (h : f.look s w = (t, w')) :
    Turned s f w t w' := by
  simp only [look] at h
  split at h
  · rename_i hc
    cases h
    exact .refused hf hc
  · rename_i hc
    have hc : w.pool.closed = false := by simpa using hc
    have hpool : (w.sweep s).pool = w.pool.sweep s.options.pool w.now := by rw [World.sweep_eq]
    rw [hpool] at h
    rcases hch : (w.pool.sweep s.options.pool w.now).choose s.options.pool f.offset with ⟨choice, q⟩
    have hq := Pool.chosen hch
    simp only [hch] at h
    cases choice with
    | reuse c skip =>
      cases hq with
      | reuse hskip hidle hleast =>
        -- the pool has chosen a connection on which a read at this position can begin
        simp only [use, Reading.start_of_skipFor hskip] at h
        cases h
        exact .reuses hf hc (.reuse hskip hidle hleast)
    | reserve => exact .reserves hf hc hq h
    | replace c => exact .replaces hf hc hq h
    | wait =>
      cases h
      exact .parks hf hc hq

theorem turned_await {id stop deadline : Nat} {ticket : τ}
    (hf : f.phase = .opening id stop ticket deadline)
    (h : f.await s id stop ticket deadline w = (t, w')) : Turned s f w t w' := by
  unfold await at h
  split at h
  · rename_i harr
    cases h
    exact .expects hf harr
  · rename_i harr
    cases h
    exact .expires hf harr
  · split at h
    · rename_i hcol
      cases h
      exact .denied hf hcol
    · rename_i body w₁ hcol
      simp only [use] at h
      split at h <;> cases h
      · rename_i r hr
        obtain ⟨-, hlt, rfl⟩ := Reading.start_eq_ok_iff.1 hr
        exact .opens hf hcol hlt
      · rename_i e hr
        -- on a connection that has just been opened at the position, only an empty range is refused
        refine .wastes hf hcol (Nat.le_of_not_lt fun hlt => ?_)
        have hok : Reading.start (.opened id f.offset stop body w₁.now) f.offset f.len = .ok _ :=
          Reading.start_eq_ok_iff.2 ⟨Nat.le_refl _, hlt, rfl⟩
        rw [hok] at hr
        cases hr

/-- **What a turn of an attempt comes to.** -/
theorem turned (h : f.step s w = (t, w')) : Turned s f w t w' := by
  unfold step at h
  split at h
  · rename_i hf
    exact turned_look hf h
  · rename_i since hf
    split at h <;> cases h
    · rename_i hlt
      exact .rouses hf hlt
    · rename_i hlt
      exact .dozes hf hlt
  · rename_i id stop ticket deadline hf
    exact turned_await hf h
  · rename_i r hf
    unfold read at h
    split at h <;> rename_i hr <;> cases h
    · exact .reads hf hr rfl rfl
    · exact .reads hf hr rfl rfl
    · exact .finishes hf hr
    · exact .breaks hf hr

end Fetch

end RemoteFile
