import RemoteFile.Proofs.File.Bytes

/-!
# How much a read yields

A read of a file that succeeds yields as many bytes as were wanted, or all up to the end. This is a
matter of counting only: it holds over every transport, whatever this answers, and whatever else
goes on from one turn of the read to the next.

Main statements:

* `Fetch.Placed.step` : an attempt reads on its connection where its counts say.
* `PoolRead.Placed.length_le` : a read through the pool yields no more than was wanted.
* `FileRead.Counted.length_eq` : a read of a file yields all that is wanted and there.
-/

namespace RemoteFile

variable {σ τ : Type} {s : Setting σ τ} {w w' : World σ} {offset len : Nat}

namespace Fetch

variable {f f' : Fetch τ} {t : Turn (Fetch τ) (Except Failure (List UInt8))}

/-- An attempt to read at most `len` bytes at `offset` stands where its counts say. -/
structure Placed (offset len : Nat) (f : Fetch τ) : Prop where
  /-- It reads there. -/
  offset_eq : f.offset = offset
  /-- It reads so much. -/
  len_eq : f.len = len
  /-- So does its read on a connection. -/
  reading : ∀ {r : Reading}, f.phase = .reading r → r.Placed offset len

theorem placed_looking (source : Source) (offset len : Nat) :
    Placed offset len (⟨source, offset, len, .looking⟩ : Fetch τ) :=
  ⟨rfl, rfl, nofun⟩

theorem Placed.begun {c : Connection} (hf : f.Placed offset len) (hle : c.cursor ≤ f.offset) :
    ({ f with phase := .reading (.begun c f.offset f.len) } : Fetch τ).Placed offset len := by
  have hoffset := hf.offset_eq
  have hlen := hf.len_eq
  refine ⟨hoffset, hlen, fun hphase => ?_⟩
  cases hphase
  rw [hoffset] at hle ⊢
  rw [hlen]
  exact .begun hle

/-- A turn keeps an attempt so, in whatever world. -/
theorem Placed.step (hf : f.Placed offset len) (h : f.step s w = (t, w'))
    (ht : t.next? = some f') : f'.Placed offset len := by
  have hoffset := hf.offset_eq
  have hlen := hf.len_eq
  cases turned h with
  | refused | expires | denied | wastes | finishes | breaks => cases ht
  | reuses _ _ hq =>
    cases ht
    cases hq with
    | reuse hskip => exact hf.begun (Pool.skipFor_eq_some_iff.1 hskip).1
  | reserves _ _ _ hr | replaces _ _ _ hr =>
    obtain ⟨⟨deadline, rfl⟩, -⟩ := requested hr
    cases ht
    exact ⟨hoffset, hlen, nofun⟩
  | parks | rouses =>
    cases ht
    exact ⟨hoffset, hlen, nofun⟩
  | dozes | expects =>
    cases ht
    exact hf
  | opens =>
    cases ht
    exact hf.begun (Nat.le_refl _)
  | reads hphase hr hnext ht' =>
    rw [ht'] at ht
    cases ht
    refine ⟨hoffset, hlen, fun hphase' => ?_⟩
    cases hphase'
    exact (hf.reading hphase).step hr hnext

/-- An attempt yields no more than was wanted. -/
theorem Placed.length_le {bytes : List UInt8} (hf : f.Placed offset len)
    (h : f.step s w = (.done (.ok bytes), w')) : bytes.length ≤ len := by
  cases turned h with
  | reads _ _ _ ht => cases ht
  | finishes hphase hr =>
    rw [((hf.reading hphase).done hr).1]
    exact Nat.min_le_left _ _
  | reserves _ _ _ hr | replaces _ _ _ hr =>
    obtain ⟨⟨deadline, heq⟩, -⟩ := requested hr
    cases heq

end Fetch

namespace PoolRead

variable {p p' : PoolRead τ} {t : Turn (PoolRead τ) (Except Failure (List UInt8))}

/-- A read through the pool makes its attempts where its counts say. -/
structure Placed (offset len : Nat) (p : PoolRead τ) : Prop where
  /-- It reads there. -/
  offset_eq : p.offset = offset
  /-- It reads so much. -/
  len_eq : p.len = len
  /-- So does its attempt. -/
  attempt : ∀ f, p.attempt? = some f → f.Placed offset len

theorem placed_start (offset len : Nat) : (start offset len : PoolRead τ).Placed offset len :=
  ⟨rfl, rfl, nofun⟩

/-- A turn keeps a read so, in whatever world. -/
theorem Placed.step (hp : p.Placed offset len) (h : p.step s w = (t, w'))
    (ht : t.next? = some p') : p'.Placed offset len := by
  obtain ⟨ot, hstep, hnext, -⟩ := next?_step h
  rw [ht] at hnext
  obtain ⟨o, ho, rfl⟩ := Option.map_eq_some_iff.1 hnext.symm
  refine ⟨hp.offset_eq, hp.len_eq, fun f (hf : o.attempt? = some f) => ?_⟩
  cases Operation.turned hstep with
  | aside _ _ hgo =>
    rcases hgo o ho with hnone | ⟨source, hsome⟩
    · cases hnone.symm.trans hf
    · -- an attempt begins where the read reads
      cases hsome.symm.trans hf
      rw [← hp.offset_eq, ← hp.len_eq]
      exact Fetch.placed_looking source _ _
  | goesOn hattempt ha hta hto ho' =>
    cases hto.symm.trans ho
    cases ho'.symm.trans hf
    exact (hp.attempt _ hattempt).step ha hta
  | succeeds => cases ho
  | fails _ _ _ hgo => cases (hgo o ho).symm.trans hf

/-- A read through the pool yields no more than was wanted. -/
theorem Placed.length_le {bytes : List UInt8} (hp : p.Placed offset len)
    (h : p.step s w = (.done (.ok bytes), w')) : bytes.length ≤ len := by
  obtain ⟨f, hf, hstep⟩ := attempt_of_done h
  exact (hp.attempt f hf).length_le hstep

end PoolRead

namespace FileRead

variable {r r' : FileRead τ} {k : Wanted} {t : Turn (FileRead τ) (Except Failure (List UInt8))}

/-- A read of a file has counted the bytes of its pieces, and wants as many more as it should. -/
structure Counted (s : Setting σ τ) (k : Wanted) (r : FileRead τ) : Prop
    extends Measured s k r where
  /-- The bytes of its pieces are counted. -/
  filled : r.Filled
  /-- The next piece is to be the rest. -/
  next : ∀ {pieces : List (List UInt8)} {filled : Nat} {next : PoolRead τ},
    r.phase = .filling pieces filled next → next.Placed (k.offset + filled) (r.len - filled)

theorem counted_start (s : Setting σ τ) (k : Wanted) :
    (start k.offset k.len : FileRead τ).Counted s k :=
  ⟨measured_start s k, nofun, nofun⟩

/-- A turn keeps a read so, in whatever world. -/
theorem Counted.step (hc : r.Counted s k) (h : r.step s w = (t, w')) (ht : t.next? = some r') :
    r'.Counted s k := by
  refine ⟨hc.toMeasured.step h ht, hc.filled.step h ht, ?_⟩
  have hoffset := hc.offset_eq
  intro pieces filled next hr'
  cases turned h with
  | refused | nothing | called | fails | ends => cases ht
  | begins =>
    cases ht
    cases hr'
    rw [hoffset]
    exact PoolRead.placed_start k.offset _
  | goesOn hr hstep hp ht' =>
    cases ht'.symm.trans ht
    cases hr'
    exact (hc.next hr).step hstep hp
  | adds =>
    cases ht
    cases hr'
    rw [hoffset]
    exact PoolRead.placed_start _ _

/-- **A read yields all that is wanted and there.** -/
theorem Counted.length_eq {bytes : List UInt8} (hc : r.Counted s k)
    (h : r.step s w = (.done (.ok bytes), w')) :
    bytes.length = available s.size k.offset k.len := by
  cases turned h with
  | nothing hr hle hnone =>
    rw [hc.offset_eq, hc.starting hr] at hnone
    rw [hnone, List.length_nil]
  | goesOn _ _ _ ht => cases ht
  | ends hr hstep hle =>
    obtain ⟨-, hlen, -, hlt⟩ := hc.toMeasured.filling hr
    -- the last piece is no less than the rest, and no more
    have hrest := (hc.next hr).length_le hstep
    rw [length_stitched, hc.filled _ _ _ hr, ← hlen]
    omega

end FileRead

end RemoteFile
