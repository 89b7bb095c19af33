import RemoteFile.Proofs.Fetch.Turn
import RemoteFile.Proofs.World.Sound

/-!
# Attempts are sound

Over a transport that serves an object, every idle connection of the pool is faithful and stays so,
and every attempt that reads does so on a faithful connection: on one that was idle, or on one that
it has opened for the range that it reads. An attempt that fails or is dropped half way closes its
connection, so that no other attempt ever sees what it has left there.

Main statements:

* `Fetch.sound_step` : a turn of an attempt keeps the pool and the attempt sound, and yields bytes
  of the object.
* `Fetch.onward_drop` : so does dropping it.
-/

namespace RemoteFile

/-- A piece of an object that a read of at most `len` bytes at `offset` may yield. -/
structure Piece (data : List UInt8) (offset len : Nat) (bytes : List UInt8) : Prop where
  /-- It is the object from that position on. -/
  of_object : bytes <+: data.drop offset
  /-- It is no longer than wanted. -/
  length_le : bytes.length ≤ len

namespace Fetch

open Turn

variable {σ τ : Type} {s : Setting σ τ} {shift : σ → σ → Prop} {data : List UInt8}
  {v : Service s.net shift data} {offset len : Nat} {f : Fetch τ} {w w₁ w' : World σ}
  {t : Turn (Fetch τ) (Except Failure (List UInt8))}

/-- An attempt to read at most `len` bytes at `offset` waits for the range that it has requested, or
reads on a faithful connection. -/
structure Sound (v : Service s.net shift data) (offset len : Nat) (w : World σ) (f : Fetch τ) :
    Prop where
  /-- It reads there. -/
  offset_eq : f.offset = offset
  /-- It reads so much. -/
  len_eq : f.len = len
  /-- The range ends within the object, and its request is under way. -/
  opening : ∀ {id stop : Nat} {ticket : τ} {deadline : Nat},
    f.phase = .opening id stop ticket deadline → stop ≤ data.length ∧
      v.awaits w.net ticket (.openRange f.source.url (ByteRange.between offset stop))
  /-- The read is faithful. -/
  reading : ∀ {r : Reading}, f.phase = .reading r → r.Faithful data offset len

theorem Sound.onward (hf : f.Sound v offset len w) (h : w.Onward v w') :
    f.Sound v offset len w' :=
  ⟨hf.offset_eq, hf.len_eq,
    fun hphase => ⟨(hf.opening hphase).1, h.net.awaits _ _ (hf.opening hphase).2⟩, hf.reading⟩

theorem sound_looking (source : Source) (w : World σ) :
    Sound v offset len w ⟨source, offset, len, .looking⟩ :=
  ⟨rfl, rfl, nofun, nofun⟩

theorem keeps_request (hsize : s.size = data.length) (hf : f.Sound v offset len w)
    (hw : w.Onward v w₁) (h : f.request s w₁ = (t, w')) :
    t.Keeps v (Sound v offset len) (Piece data offset len) w w' := by
  obtain ⟨⟨deadline, rfl⟩, hpool, hnet, -, -⟩ := requested h
  obtain ⟨hlater, hawaits⟩ := v.sent hw.net.good rfl
  rw [← hnet] at hlater hawaits
  refine keeps_of_next (hw.trans ⟨hlater, ?_⟩) rfl
    ⟨hf.offset_eq, hf.len_eq, fun hphase => ?_, nofun⟩
  · rw [hpool]
    exact hw.idle
  · cases hphase
    rw [← hsize, ← hf.offset_eq]
    exact ⟨rangeStop_le _ _ _, hawaits⟩

theorem keeps_begun {c : Connection} (hf : f.Sound v offset len w) (hw : w.Onward v w')
    (hc : c.Faithful data) (hle : c.cursor ≤ f.offset) :
    (moved { f with phase := .reading (.begun c f.offset f.len) } : Turn (Fetch τ) _).Keeps v
      (Sound v offset len) (Piece data offset len) w w' := by
  refine keeps_of_next hw rfl ⟨hf.offset_eq, hf.len_eq, nofun, fun hphase => ?_⟩
  cases hphase
  rw [← hf.offset_eq, ← hf.len_eq]
  exact Reading.faithful_begun hc hle

section

variable {id stop deadline : Nat} {ticket : τ}

theorem faithful_opened {body : Body} (hw : w.Sound v) (hf : f.Sound v offset len w)
    (hphase : f.phase = .opening id stop ticket deadline) (hlt : f.offset < stop)
    (h : w.collect s ticket = (.ok body, w₁)) (now : Nat) :
    (Connection.opened id f.offset stop body now).Faithful data := by
  obtain ⟨hstop, hawaits⟩ := hf.opening hphase
  obtain ⟨notices, hopened⟩ := World.net_of_collect h
  rw [hf.offset_eq] at hlt ⊢
  have hheard := v.served hw.net hlt hawaits hopened
  rw [Nat.min_eq_left hstop] at hheard
  exact ⟨hheard, hstop⟩

theorem onward_collect {r : Except Failure Body} (hw : w.Sound v) (hf : f.Sound v offset len w)
    (hphase : f.phase = .opening id stop ticket deadline)
    (h : w.collect s ticket = (r, w₁)) : w.Onward v w₁ := by
  obtain ⟨notices, hopened⟩ := World.net_of_collect h
  refine ⟨v.opened hw.net (hf.opening hphase).2 hopened, ?_⟩
  rw [World.pool_of_collect h]
  exact hw.idle

end

/-- **A turn of an attempt is sound.** -/
theorem sound_step (hsize : s.size = data.length) (hw : w.Sound v) (hf : f.Sound v offset len w)
    (h : f.step s w = (t, w')) : t.Keeps v (Sound v offset len) (Piece data offset len) w w' := by
  have hsweep : w.Onward v (w.sweep s) := hw.sweep
  cases turned h with
  | refused hphase hc => exact keeps_error hw.onward _
  | reuses hphase hc hq =>
    cases hq with
    | reuse hskip hidle hleast =>
      -- the connection was idle, hence faithful, and it has not passed the position
      rw [← World.pool_sweep] at hidle
      obtain ⟨hfaithful, hrest⟩ := hsweep.take hidle
      exact keeps_begun hf ⟨hsweep.net, hrest⟩ hfaithful (Pool.skipFor_eq_some_iff.1 hskip).1
  | reserves hphase hc hq hr =>
    cases hq with
    | reserve hnone hroom =>
      have hidle := hsweep.idle
      rw [World.pool_sweep] at hidle
      refine keeps_request hsize hf ?_ hr
      exact ⟨hsweep.net, hidle⟩
  | replaces hphase hc hq hr =>
    cases hq with
    | replace hnone hfull hidle hold =>
      rw [← World.pool_sweep] at hidle
      refine keeps_request hsize hf ?_ hr
      exact ⟨hsweep.net.trans (v.closed hsweep.net.good), (hsweep.take hidle).2⟩
  | parks hphase hc hq =>
    cases hq with
    | wait hidle hfull =>
      have hidle := hsweep.idle
      rw [World.pool_sweep] at hidle
      exact keeps_of_next ⟨hsweep.net, hidle⟩ rfl ⟨hf.offset_eq, hf.len_eq, nofun, nofun⟩
  | rouses hphase hlt => exact keeps_of_next hw.onward rfl ⟨hf.offset_eq, hf.len_eq, nofun, nofun⟩
  | dozes hphase hlt | expects hphase harr => exact keeps_of_next hw.onward rfl hf
  | expires hphase harr => exact keeps_error hw.onward.freeSlot _
  | denied hphase hcol => exact keeps_error (onward_collect hw hf hphase hcol).freeSlot _
  | opens hphase hcol hstop =>
    have hw₁ := onward_collect hw hf hphase hcol
    exact keeps_begun hf ⟨hw₁.net, hw₁.idle⟩ (faithful_opened hw hf hphase hstop hcol _)
      (Nat.le_refl _)
  | @wastes id stop deadline ticket body e w₁ hphase hcol hstop =>
    have hw₁ := onward_collect hw hf hphase hcol
    have hw₂ : w.Onward v ((w₁.count Counters.opened).note
      (.opened id f.offset stop f.source.generation)) := ⟨hw₁.net, hw₁.idle⟩
    exact keeps_error (hw₂.giveUp _) _
  | reads hphase hr hnext ht =>
    refine keeps_of_next (hw.onward.beside (Reading.beside_step hr)) ht
      ⟨hf.offset_eq, hf.len_eq, nofun, fun hphase' => ?_⟩
    cases hphase'
    exact (hf.reading hphase).step hr hnext
  | finishes hphase hr =>
    obtain ⟨hbytes, hlength, hconn⟩ := (hf.reading hphase).done hr
    have hw' := hw.onward.beside (Reading.beside_step hr)
    exact keeps_ok (hw'.giveBack hconn) ⟨hbytes, hlength.trans_le (Nat.min_le_left _ _)⟩
  | breaks hphase hr =>
    -- the connection is closed, so that nobody reads what it has left over
    exact keeps_error ((hw.onward.beside (Reading.beside_step hr)).giveUp _) _

/-- Dropping an attempt is sound. -/
theorem onward_drop (hw : w.Sound v) (f : Fetch τ) : w.Onward v (f.drop s w) := by
  unfold drop
  split
  · exact hw.onward
  · exact hw.onward
  · exact hw.onward.freeSlot
  · exact hw.onward.giveUp _

end Fetch

end RemoteFile
