import RemoteFile.Proofs.Fetch.Sound
import RemoteFile.Proofs.Pool.Crowd

/-!
# Reads through the pool are sound

A read through the pool begins each of its attempts anew, at its own position, so that it is sound
whatever became of the attempts before.

Main statements:

* `PoolRead.sound_step` : a turn of a read keeps the pool and the read sound, and yields bytes of
  the object.
* `PoolRead.onward_drop` : so does dropping it.
-/

namespace RemoteFile

namespace PoolRead

variable {σ τ : Type} {s : Setting σ τ} {shift : σ → σ → Prop} {data : List UInt8}
  {v : Service s.net shift data} {offset len : Nat} {p : PoolRead τ} {w w' : World σ}
  {t : Turn (PoolRead τ) (Except Failure (List UInt8))}

/-- A read of at most `len` bytes at `offset` makes sound attempts. -/
structure Sound (v : Service s.net shift data) (offset len : Nat) (w : World σ) (p : PoolRead τ) :
    Prop where
  /-- It reads there. -/
  offset_eq : p.offset = offset
  /-- It reads so much. -/
  len_eq : p.len = len
  /-- Its attempt is sound. -/
  attempt : p.operation.Good (Fetch.Sound v offset len) w

theorem Sound.onward (hp : p.Sound v offset len w) (h : w.Onward v w') :
    p.Sound v offset len w' :=
  ⟨hp.offset_eq, hp.len_eq, fun f hf => (hp.attempt f hf).onward h⟩

theorem sound_start (offset len : Nat) (w : World σ) :
    (start offset len : PoolRead τ).Sound v offset len w :=
  ⟨rfl, rfl, nofun⟩

/-- **A turn of a read is sound.** -/
theorem sound_step (hsize : s.size = data.length) (hw : w.Sound v) (hp : p.Sound v offset len w)
    (h : p.step s w = (t, w')) :
    t.Keeps v (fun w p => Sound v offset len w p) (Piece data offset len) w w' := by
  obtain ⟨ot, hstep, hnext, hdone⟩ := next?_step h
  rw [hp.offset_eq, hp.len_eq] at hstep
  have hk := Operation.keeps_step (fun _ source => Fetch.sound_looking source w')
    (fun hf ha => Fetch.sound_step hsize hw hf ha) hw hp.attempt hstep
  exact hk.map (.refl w') hnext (fun o ho => ⟨hp.offset_eq, hp.len_eq, ho⟩)
    fun bytes hb => ⟨bytes, (hdone _).1 hb, id⟩

/-- Dropping a read is sound. -/
theorem onward_drop (hw : w.Sound v) (p : PoolRead τ) : w.Onward v (p.drop s w) :=
  Operation.onward_drop (Fetch.onward_drop hw) hw _

end PoolRead

end RemoteFile
