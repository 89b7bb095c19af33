import RemoteFile.Proofs.Crowd.Life
import RemoteFile.Proofs.Fetch.Progress

/-!
# Reads through the pool get on

A read through the pool begins each of its attempts at its own position, and so gets on as its
attempts do: whatever has become of the pool, a read that succeeds yields at least one byte of an
object that has one at its position.

Main statements:

* `PoolRead.fits` : the attempts of every read are made at its position, on connections within the
  object.
* `PoolRead.Fits.progresses` : such a read gets on.
-/

namespace RemoteFile

namespace PoolRead

variable {σ τ : Type} {s : Setting σ τ} {shift : σ → σ → Prop} {k : Wanted} {p p' : PoolRead τ}
  {w w' w₀ : World σ} {t : Turn (PoolRead τ) (Except Failure (List UInt8))}
  {c : Crowd (World σ) Wanted (PoolRead τ) (Except Failure (List UInt8))}

/-- A read makes its attempts where it should. -/
structure Fits (s : Setting σ τ) (k : Wanted) (p : PoolRead τ) : Prop where
  /-- It reads there. -/
  offset_eq : p.offset = k.offset
  /-- It reads so much. -/
  len_eq : p.len = k.len
  /-- So does its attempt. -/
  attempt : ∀ f, p.attempt? = some f → f.Fits s k.offset k.len

/-- A read gets on: the connections that its attempts are given serve its position, and it yields as
many bytes as are wanted, unless the connection ends before, and in any case one. -/
structure Progresses (s : Setting σ τ) (k : Wanted) (w : World σ) (p : PoolRead τ) : Prop where
  /-- An attempt that is given a connection begins to read on it. -/
  begins : ∀ f d, p.attempt? = some f → f.Hands s w d →
    Reading.start d k.offset k.len = .ok (.begun d k.offset k.len) ∧
      ∃ w', f.step s w =
        (.moved { f with phase := .reading (.begun d k.offset k.len) }, w')
  /-- A read that succeeds yields bytes of the connection that its attempt has read on. -/
  yields : ∀ bytes w', p.step s w = (.done (.ok bytes), w') →
    0 < bytes.length ∧ ∃ f r, p.attempt? = some f ∧ f.phase = .reading r ∧
      k.offset < r.conn.stop ∧ r.conn.stop ≤ s.size ∧
      bytes.length = min k.len (r.conn.stop - k.offset)

theorem fits_start (s : Setting σ τ) (k : Wanted) :
    (start k.offset k.len : PoolRead τ).Fits s k := by
  refine ⟨rfl, rfl, fun f hf => ?_⟩
  cases hf

theorem Fits.step (hp : p.Fits s k) (hidle : ∀ c ∈ w.pool.idle, c.stop ≤ s.size)
    (h : p.step s w = (t, w')) (ht : t.next? = some p') : p'.Fits s k := by
  obtain ⟨ot, hstep, hnext, -⟩ := next?_step h
  rw [ht] at hnext
  obtain ⟨o, ho, rfl⟩ := Option.map_eq_some_iff.1 hnext.symm
  refine ⟨hp.offset_eq, hp.len_eq, fun f hf => ?_⟩
  have hf : o.attempt? = some f := hf
  cases Operation.turned hstep with
  | aside _ hw hgo hend =>
    rcases hgo o ho with hnone | ⟨source, hsome⟩
    · cases hnone.symm.trans hf
    · -- an attempt begins at the position of the read
      cases hsome.symm.trans hf
      rw [← hp.offset_eq, ← hp.len_eq]
      exact Fetch.fits_looking s source _ _
  | goesOn hattempt ha hta hto ho' =>
    cases hto.symm.trans ho
    cases ho'.symm.trans hf
    exact (hp.attempt _ hattempt).step hidle ha hta
  | succeeds => cases ho
  | fails hattempt ha hw hgo hend => cases (hgo o ho).symm.trans hf

/-- **The attempts of every read are made at its position**, on connections within the object. -/
theorem fits (h : Crowd.Reachable (rules s shift) (Crowd.empty w₀) c) (h₀ : w₀.pool = Pool.fresh) :
    ∀ x ∈ c.tasks, x.2.Fits s x.1 := by
  refine h.tasks (T := fun k p => p.Fits s k) (fits_start s) fun hreach hp hstep hnext => ?_
  exact hp.step (fun d hd => ((Crowd.custody pooling hreach h₀).idle d hd).2) hstep hnext

theorem attempt_of_done {bytes : List UInt8} (h : p.step s w = (.done (.ok bytes), w')) :
    ∃ f, p.attempt? = some f ∧ f.step s w = (.done (.ok bytes), w') := by
  obtain ⟨ot, hstep, -, hdone⟩ := next?_step h
  have hot := (hdone _).1 rfl
  cases Operation.turned hstep with
  | aside _ _ _ hend => exact absurd hot (hend bytes)
  | goesOn _ _ _ hto =>
    rw [hot] at hto
    cases hto
  | succeeds ho ha =>
    cases hot
    exact ⟨_, ho, ha⟩
  | fails _ _ _ _ hend => exact absurd hot (hend bytes)

/-- **A read that fits gets on** if there is a byte at its position and one is wanted. -/
theorem Fits.progresses (hp : p.Fits s k) (hoffset : k.offset < s.size) (hlen : 0 < k.len)
    (hsize : s.size < positionLimit) (hmax : s.options.pool.maxRangeLen ≠ some 0) (w : World σ) :
    p.Progresses s k w where
  begins f d hf hd := by
    have hfits := hp.attempt f hf
    have hstart := Fetch.start_of_hands hfits hoffset hsize hmax hd
    obtain ⟨w₁, hstep⟩ := Fetch.step_of_hands hd
    refine ⟨hstart, w₁, ?_⟩
    rw [hstep, Fetch.use, hfits.offset_eq, hfits.len_eq, hstart]
  yields bytes w' h := by
    obtain ⟨f, hf, hstep⟩ := attempt_of_done h
    obtain ⟨r, hr, hlt, hstop, hlength⟩ := (hp.attempt f hf).yields hstep
    refine ⟨?_, f, r, hf, hr, hlt, hstop, hlength⟩
    omega

end PoolRead

end RemoteFile
