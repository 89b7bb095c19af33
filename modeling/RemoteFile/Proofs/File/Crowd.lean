import RemoteFile.File.Read
import RemoteFile.Proofs.Pool.Crowd

/-!
# Crowds of reads of a file

A file is opened, and then any number of reads of it join, take their turns and are dropped
whenever they like, while time passes, reads are called off, the file is closed, and the transport
changes by itself.

Main statements:

* `File.next?_openStep` : a turn of opening is a turn of the operation that probes.
* `FileRead.turned` : a turn of a read that has begun is one of its read through the pool.
* `FileRead.acting` : a read calls the transport and touches connections by its attempts only.
-/

namespace RemoteFile

variable {σ τ : Type}

namespace File

/-- What happens while a file is opened. -/
inductive Outside (shift : σ → σ → Prop) : World σ → World σ → Prop
  /-- Time passes. -/
  | pass (millis : Nat) (w : World σ) : Outside shift w (w.pass millis)
  /-- The transport changes by itself. -/
  | shift {net : σ} (w : World σ) (h : shift w.net net) : Outside shift w { w with net := net }

/-- Opening files over a transport that may change from one state to another one by itself as
`shift` says. -/
def rules (s : Setting σ τ) (shift : σ → σ → Prop) :
    Crowd.Rules (World σ) Url (Opening τ) (Except Failure FileInfo) :=
  ⟨opener s, begin, Outside shift⟩

/-- A turn of opening is a turn of the operation that probes. -/
theorem next?_openStep {s : Setting σ τ} {o : Opening τ} {w w' : World σ}
    {t : Turn (Opening τ) (Except Failure FileInfo)} (h : openStep s o w = (t, w')) :
    ∃ ot w₁, o.probe.step s (Probing.attempts s) w = (ot, w₁) ∧ w₁.Arranges w' ∧
      t.next? = ot.next?.map (fun p => { o with probe := p }) ∧
      ∀ info, t = .done (.ok info) → ∃ p, ot = .done (.ok p) ∧ info = FileInfo.ofProbe o.url p := by
  unfold openStep at h
  split at h <;> rename_i hstep <;> cases h
  · exact ⟨_, _, hstep, .refl _, rfl, nofun⟩
  · exact ⟨_, _, hstep, .refl _, rfl, nofun⟩
  · exact ⟨_, _, hstep, .refl _, rfl, nofun⟩
  · refine ⟨_, _, hstep, (World.Arranges.refl _).record rfl, rfl, fun info hinfo => ⟨_, rfl, ?_⟩⟩
    cases hinfo
    rfl

end File

namespace FileRead

/-- What happens to a file besides its reads. -/
inductive Outside (s : Setting σ τ) (info : FileInfo) (shift : σ → σ → Prop) :
    World σ → World σ → Prop
  /-- Time passes. -/
  | pass (millis : Nat) (w : World σ) : Outside s info shift w (w.pass millis)
  /-- Reads are called off. -/
  | cancel (w : World σ) : Outside s info shift w (File.cancel w)
  /-- The file is closed. -/
  | close (w : World σ) : Outside s info shift w (File.close s info w)
  /-- The transport changes by itself. -/
  | shift {net : σ} (w : World σ) (h : shift w.net net) :
      Outside s info shift w { w with net := net }

/-- Reads of a file, with a transport that may change from one state to another one by itself as
`shift` says. -/
def rules (s : Setting σ τ) (info : FileInfo) (shift : σ → σ → Prop) :
    Crowd.Rules (World σ) Wanted (FileRead τ) (Except Failure (List UInt8)) :=
  ⟨actor s, fun k => start k.offset k.len, Outside s info shift⟩

/-- What a turn of a read of a file comes to. -/
inductive Turned (s : Setting σ τ) (r : FileRead τ) (w : World σ) :
    Turn (FileRead τ) (Except Failure (List UInt8)) → World σ → Prop
  /-- The file is closed, or has no byte there. -/
  | refused (hr : r.phase = .starting) (e : Failure) : Turned s r w (.done (.error e)) w
  /-- Nothing is wanted, or the position is the end of the file. -/
  | nothing (hr : r.phase = .starting) (hle : r.offset ≤ s.size)
      (hnone : available s.size r.offset r.len = 0) : Turned s r w (.done (.ok [])) w
  /-- The read begins. -/
  | begins (hr : r.phase = .starting) (hle : r.offset ≤ s.size) :
      Turned s r w
        (.moved ⟨r.offset, available s.size r.offset r.len,
          .filling [] 0 (PoolRead.start r.offset (available s.size r.offset r.len))⟩) w
  /-- The read is called off. -/
  | called {w' : World σ} {pieces : List (List UInt8)} {filled : Nat} {next : PoolRead τ}
      (hr : r.phase = .filling pieces filled next) (hc : w.cancelled = true)
      (hw : (next.drop s w).Arranges w') : Turned s r w (.done (.error .cancelled)) w'
  /-- The read through the pool goes on. -/
  | goesOn {w' : World σ} {pieces : List (List UInt8)} {filled : Nat} {next next' : PoolRead τ}
      {tp : Turn (PoolRead τ) (Except Failure (List UInt8))}
      {t : Turn (FileRead τ) (Except Failure (List UInt8))}
      (hr : r.phase = .filling pieces filled next) (h : next.step s w = (tp, w'))
      (hp : tp.next? = some next')
      (ht : t.next? = some { r with phase := .filling pieces filled next' }) : Turned s r w t w'
  /-- The read through the pool fails, or yields nothing. -/
  | fails {w' : World σ} {pieces : List (List UInt8)} {filled : Nat} {next : PoolRead τ}
      {b : Except Failure (List UInt8)} {e : Failure} (hr : r.phase = .filling pieces filled next)
      (h : next.step s w = (.done b, w')) : Turned s r w (.done (.error e)) w'
  /-- The last piece is there. -/
  | ends {w' : World σ} {pieces : List (List UInt8)} {filled : Nat} {next : PoolRead τ}
      {bytes : List UInt8} {w₁ : World σ} (hr : r.phase = .filling pieces filled next)
      (h : next.step s w = (.done (.ok bytes), w₁)) (hle : r.len ≤ filled + bytes.length)
      (hw : w₁.Arranges w') : Turned s r w (.done (.ok (bytes :: pieces).reverse.flatten)) w'
  /-- Another piece is there, and the next one is wanted. -/
  | adds {w' : World σ} {pieces : List (List UInt8)} {filled : Nat} {next : PoolRead τ}
      {bytes : List UInt8} (hr : r.phase = .filling pieces filled next)
      (h : next.step s w = (.done (.ok bytes), w')) (hlt : filled + bytes.length < r.len) :
      Turned s r w
        (.moved { r with
          phase := .filling (bytes :: pieces) (filled + bytes.length)
            (PoolRead.start (r.offset + (filled + bytes.length))
              (r.len - (filled + bytes.length))) }) w'

/-- **What a turn of a read of a file comes to.** -/
theorem turned {s : Setting σ τ} {r : FileRead τ} {w w' : World σ}
    {t : Turn (FileRead τ) (Except Failure (List UInt8))} (h : r.step s w = (t, w')) :
    Turned s r w t w' := by
  unfold step at h
  split at h
  · rename_i hr
    unfold begin at h
    split at h
    · cases h
      exact .refused hr _
    · split at h
      · cases h
        exact .refused hr _
      · rename_i hlt
        split at h <;> cases h
        · rename_i hnone
          exact .nothing hr (Nat.le_of_not_lt hlt) hnone
        · exact .begins hr (Nat.le_of_not_lt hlt)
  · rename_i pieces filled next hr
    split at h
    · rename_i hc
      cases h
      refine .called hr hc ?_
      simp only [drop, hr]
      exact (World.Arranges.refl _).record rfl
    · unfold fill at h
      split at h <;> rename_i hstep
      · cases h
        exact .goesOn hr hstep rfl rfl
      · cases h
        exact .goesOn hr hstep rfl rfl
      · cases h
        exact .fails hr hstep
      · simp only [extend] at h
        split at h
        · cases h
          exact .fails hr hstep
        · split at h <;> cases h
          · rename_i hle
            exact .ends hr hstep hle ((World.Arranges.refl _).count
              (f := (·.served (filled + _))) fun _ => rfl)
          · rename_i hle
            exact .adds hr hstep (Nat.lt_of_not_le hle)

variable {s : Setting σ τ} {info : FileInfo} {shift : σ → σ → Prop} {r : FileRead τ}
  {w w' : World σ}

/-- The attempt that a read is making. -/
def attempt? (r : FileRead τ) : Option (Fetch τ) :=
  match r.phase with
  | .starting => none
  | .filling _ _ next => next.attempt?

theorem attempt?_of_starting (hr : r.phase = .starting) : r.attempt? = none := by
  rw [attempt?, hr]

theorem attempt?_of_filling {pieces : List (List UInt8)} {filled : Nat} {next : PoolRead τ}
    (hr : r.phase = .filling pieces filled next) : r.attempt? = next.attempt? := by
  rw [attempt?, hr]

theorem acts_drop (s : Setting σ τ) (r : FileRead τ) (w : World σ) :
    Fetch.Acts s w r.attempt? (r.drop s w) none := by
  obtain ⟨offset, len, phase⟩ := r
  cases phase with
  | starting => exact .aside s (.refl w)
  | filling pieces filled next => exact PoolRead.acts_drop s next w

theorem acts_step {t : Turn (FileRead τ) (Except Failure (List UInt8))}
    (h : r.step s w = (t, w')) : Fetch.Acts s w r.attempt? w' (t.next?.bind attempt?) := by
  cases turned h with
  | refused hr | nothing hr | begins hr =>
    rw [attempt?_of_starting hr]
    exact .aside s (.refl w)
  | @called _ pieces filled next hr hc hw =>
    rw [attempt?_of_filling hr]
    exact (PoolRead.acts_drop s next w).arranges hw
  | goesOn hr hstep hp ht =>
    rw [attempt?_of_filling hr, ht]
    have hacts := PoolRead.acts_step hstep
    rw [hp] at hacts
    exact hacts
  | fails hr hstep | adds hr hstep hlt =>
    rw [attempt?_of_filling hr]
    exact PoolRead.acts_step hstep
  | ends hr hstep hle hw =>
    rw [attempt?_of_filling hr]
    exact (PoolRead.acts_step hstep).arranges hw

/-- A read calls the transport and touches connections by its attempts only. -/
theorem acting : (rules s info shift).Acting s attempt? where
  start _ := rfl
  turn := acts_step
  drop := acts_drop s

theorem attempting : (rules s info shift).Attempting s attempt? := acting.attempting

end FileRead

end RemoteFile
