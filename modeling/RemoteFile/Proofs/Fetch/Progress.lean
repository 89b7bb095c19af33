import RemoteFile.Proofs.Connection.Account

/-!
# Attempts get on

What serves an attempt is decided in three places: the pool says which idle connections can serve a
position, a request says how far a new connection reaches, and the read checks both once more. They
agree, so that no read is refused by the connection that it was given, and a read that succeeds
yields at least one byte.

Main statements:

* `lt_rangeStop` : a request reaches past the position that it is made for.
* `Fetch.step_of_hands` : an attempt that has a connection begins to read on it.
* `Fetch.start_of_hands` : the connection serves the position.
* `Fetch.Fits.yields` : how many bytes an attempt yields.
-/

namespace RemoteFile

/-- A request reaches past the position that it is made for. -/
theorem lt_rangeStop {offset size : Nat} {maxLen : Option Nat} (hoffset : offset < size)
    (hsize : size < positionLimit) (hlen : maxLen ≠ some 0) :
    offset < rangeStop offset size maxLen := by
  cases maxLen with
  | none => exact hoffset
  | some n =>
    have hn : n ≠ 0 := fun h => hlen (congrArg some h)
    simp only [rangeStop]
    omega

namespace Fetch

variable {σ τ : Type} {s : Setting σ τ} {offset len : Nat} {f f' : Fetch τ} {w w' : World σ}
  {t : Turn (Fetch τ) (Except Failure (List UInt8))} {c : Connection}

/-- The connection on which an attempt begins to read in its turn. -/
inductive Hands (s : Setting σ τ) (f : Fetch τ) (w : World σ) : Connection → Prop
  /-- It was idle. -/
  | reused {c : Connection} {skip : Nat} {q : Pool} (hf : f.phase = .looking)
      (hc : w.pool.closed = false)
      (h : (w.pool.sweep s.options.pool w.now).choose s.options.pool f.offset =
        (.reuse c skip, q)) : Hands s f w c
  /-- It has just been opened. -/
  | opened {id stop deadline : Nat} {ticket : τ} {body : Body} {w₁ : World σ}
      (hf : f.phase = .opening id stop ticket deadline)
      (harr : s.net.arrival ticket (some deadline) w.now = .here)
      (h : w.collect s ticket = (.ok body, w₁)) :
      Hands s f w (.opened id f.offset stop body w₁.now)

/-- An attempt that has a connection uses it. -/
theorem step_of_hands (h : f.Hands s w c) : ∃ w₁, f.step s w = f.use s c w₁ := by
  cases h with
  | @reused c skip q hf hc h =>
    rw [← World.pool_sweep] at h
    refine ⟨(((w.sweep s).manage fun _ => q).count Counters.reused).note
      (.reusing c.id f.offset skip), ?_⟩
    simp only [step, hf, look, hc, h, Bool.false_eq_true, if_false]
  | @opened id stop deadline ticket body w₁ hf harr h =>
    refine ⟨(w₁.count Counters.opened).note (.opened id f.offset stop f.source.generation), ?_⟩
    simp only [step, hf, await, harr, h]

/-- An attempt to read at most `len` bytes at `offset` waits for a connection that reaches as far as
requests do, or reads on one that reaches past the position and not past the end of the object. -/
structure Fits (s : Setting σ τ) (offset len : Nat) (f : Fetch τ) : Prop where
  /-- It reads there. -/
  offset_eq : f.offset = offset
  /-- It reads so much. -/
  len_eq : f.len = len
  /-- How far a new connection reaches. -/
  opening : ∀ {id stop deadline : Nat} {ticket : τ}, f.phase = .opening id stop ticket deadline →
    stop = rangeStop offset s.size s.options.pool.maxRangeLen
  /-- How far the connection reaches that is read on. -/
  reading : ∀ {r : Reading}, f.phase = .reading r →
    offset < r.conn.stop ∧ r.conn.stop ≤ s.size ∧ r.Placed offset len

theorem fits_looking (s : Setting σ τ) (source : Source) (offset len : Nat) :
    Fits s offset len ⟨source, offset, len, .looking⟩ := by
  refine ⟨rfl, rfl, ?_, ?_⟩
  · intro id stop deadline ticket hphase
    cases hphase
  · intro r hphase
    cases hphase

theorem Fits.begun (hf : f.Fits s offset len) (hle : c.cursor ≤ f.offset) (hlt : f.offset < c.stop)
    (hstop : c.stop ≤ s.size) :
    Fits s offset len { f with phase := .reading (.begun c f.offset f.len) } := by
  have hoffset := hf.offset_eq
  have hlen := hf.len_eq
  refine ⟨hoffset, hlen, nofun, fun hphase => ?_⟩
  cases hphase
  rw [hoffset] at hle hlt
  rw [hoffset, hlen]
  exact ⟨hlt, hstop, .begun hle⟩

theorem Fits.step (hf : f.Fits s offset len) (hidle : ∀ c ∈ w.pool.idle, c.stop ≤ s.size)
    (h : f.step s w = (t, w')) (ht : t.next? = some f') : f'.Fits s offset len := by
  have hoffset := hf.offset_eq
  have hlen := hf.len_eq
  cases turned h with
  | refused | expires | denied | wastes | finishes | breaks => cases ht
  | reuses _ hc hq =>
    cases ht
    cases hq with
    | reuse hskip hperm hleast =>
      obtain ⟨hle, hlt, -, -⟩ := Pool.skipFor_eq_some_iff.1 hskip
      exact hf.begun hle hlt (hidle _ (List.mem_filter.1 (hperm.mem_iff.2 List.mem_cons_self)).1)
  | reserves _ hc hq hr | replaces _ hc hq hr =>
    obtain ⟨⟨deadline, rfl⟩, -⟩ := requested hr
    cases ht
    refine ⟨hoffset, hlen, fun hphase => ?_, nofun⟩
    cases hphase
    rw [hoffset]
  | parks | rouses =>
    cases ht
    exact ⟨hoffset, hlen, nofun, nofun⟩
  | dozes | expects =>
    cases ht
    exact hf
  | opens hphase hcol hstop =>
    cases ht
    have hreach := hf.opening hphase
    exact hf.begun (Nat.le_refl _) hstop (hreach ▸ rangeStop_le _ _ _)
  | reads hphase hr hnext ht' =>
    rw [ht'] at ht
    cases ht
    refine ⟨hoffset, hlen, nofun, fun hphase' => ?_⟩
    cases hphase'
    obtain ⟨hlt, hstop, hplaced⟩ := hf.reading hphase
    have hsame := (Reading.sameConn_step hr hnext).stop
    rw [← hsame] at hlt hstop
    exact ⟨hlt, hstop, hplaced.step hr hnext⟩

/-- **The connection that an attempt is given serves its position.** -/
theorem start_of_hands (hf : f.Fits s offset len) (hoffset : offset < s.size)
    (hsize : s.size < positionLimit) (hmax : s.options.pool.maxRangeLen ≠ some 0)
    (h : f.Hands s w c) : Reading.start c offset len = .ok (.begun c offset len) := by
  cases h with
  | reused _ hc h =>
    cases Pool.chosen h with
    | reuse hskip hperm hleast =>
      rw [hf.offset_eq] at hskip
      exact Reading.start_of_skipFor hskip
  | @opened id stop deadline ticket body w₁ hphase harr h =>
    have hlt := lt_rangeStop hoffset hsize hmax
    rw [← hf.opening hphase] at hlt
    exact Reading.start_eq_ok_iff.2 ⟨Nat.le_of_eq hf.offset_eq, hlt, rfl⟩

/-- **How many bytes an attempt yields**: as many as were wanted, unless its connection ends
before, which it does within the object and after the position. -/
theorem Fits.yields {bytes : List UInt8} (hf : f.Fits s offset len)
    (h : f.step s w = (.done (.ok bytes), w')) :
    ∃ r, f.phase = .reading r ∧ offset < r.conn.stop ∧ r.conn.stop ≤ s.size ∧
      bytes.length = min len (r.conn.stop - offset) := by
  cases turned h with
  | @reads r r' tr t w' hphase hr hnext ht => cases ht
  | @finishes r bytes c w₁ hphase hr =>
    obtain ⟨hlt, hstop, hplaced⟩ := hf.reading hphase
    exact ⟨r, hphase, hlt, hstop, (hplaced.done hr).1⟩
  | reserves _ _ _ hr | replaces _ _ _ hr =>
    obtain ⟨⟨deadline, heq⟩, -⟩ := requested hr
    cases heq

end Fetch

end RemoteFile
