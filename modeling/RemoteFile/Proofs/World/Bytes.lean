import RemoteFile.Proofs.Connection.Account
import RemoteFile.Proofs.File.Opening

/-!
# Who counts bytes

Bytes are counted as dropped in the turns of the reads that drop them, and as served when a read of
a file ends. Whatever else is done, renewing a URL, looking for a connection, opening one and
closing it, counts none.

Main statements:

* `Operation.bytes_step` : an operation counts the bytes that its attempt counts.
* `Fetch.bytes_step` : an attempt counts the bytes that it drops.
* `File.bytes_of_opening`, `File.unread_of_opening` : opening a file counts none, and no connection.
-/

namespace RemoteFile

/-- How many bytes are counted as served, and how many as dropped. -/
def World.bytes {σ : Type} (w : World σ) : Nat × Nat :=
  (w.counters.bytesServed, w.counters.bytesDiscarded)

/-- Connections are neither handed out nor closed, none is counted, and reads are not called off. -/
structure World.Unread {σ : Type} (w w' : World σ) : Prop where
  /-- The connections. -/
  pool : w'.pool = w.pool
  /-- Whether the file is closed. -/
  closed : w'.closed = w.closed
  /-- Whether reads are called off. -/
  cancelled : w'.cancelled = w.cancelled
  /-- How many connections were opened. -/
  opened : w'.counters.connsOpened = w.counters.connsOpened
  /-- How often an idle one was used again. -/
  reused : w'.counters.connsReused = w.counters.connsReused
  /-- How many were evicted. -/
  evicted : w'.counters.connsEvicted = w.counters.connsEvicted

theorem World.Unread.trans {σ : Type} {w w₁ w' : World σ} (h : w.Unread w₁) (h' : w₁.Unread w') :
    w.Unread w' :=
  ⟨h'.pool.trans h.pool, h'.closed.trans h.closed, h'.cancelled.trans h.cancelled,
    h'.opened.trans h.opened, h'.reused.trans h.reused, h'.evicted.trans h.evicted⟩

theorem World.Beside.unread {σ : Type} {w w' : World σ} (h : w.Beside w') : w.Unread w' := by
  have hcounters := h.counters
  simp only [Counters.ofConns, Counters.mk.injEq] at hcounters
  obtain ⟨-, -, -, hopened, hreused, hevicted, -⟩ := hcounters
  exact ⟨h.pool, h.closed, h.cancelled, hopened, hreused, hevicted⟩

namespace World

variable {σ τ : Type} (s : Setting σ τ) (w : World σ)

theorem bytes_giveBack (c : Connection) : (w.giveBack s c).bytes = w.bytes := by
  rcases w.giveBack_eq s c with ⟨heq, -⟩ | ⟨heq, -⟩ <;> rw [heq] <;> rfl

theorem bytes_sweep : (w.sweep s).bytes = w.bytes := by
  rw [sweep_eq]
  rfl

theorem bytes_of_collect {s : Setting σ τ} {w w₁ : World σ} {ticket : τ}
    {r : Except Failure Body} (h : w.collect s ticket = (r, w₁)) : w₁.bytes = w.bytes := by
  rw [collect_eq] at h
  cases h
  rfl

end World

namespace Renewal

variable {σ τ : Type} {s : Setting σ τ} {r : Renewal} {w w' : World σ}
  {t : Turn Renewal (Except Failure Source)}

/-- A renewal counts no bytes. -/
theorem bytes_step (h : r.step s w = (t, w')) : w'.bytes = w.bytes := by
  unfold step at h
  split at h
  · cases h
    rfl
  · split at h
    · simp only [takeTurn] at h
      split at h
      · cases h
        rfl
      · split at h
        · cases h
          rfl
        · split at h <;> cases h <;> rfl
    · cases h
      rfl
  · split at h
    · simp only [complete] at h
      split at h <;> cases h <;> rfl
    · cases h
      rfl

theorem bytes_drop (r : Renewal) (w : World σ) : (r.drop w).bytes = w.bytes := by
  unfold drop
  split <;> rfl

end Renewal

namespace Operation

variable {σ τ α β : Type} {s : Setting σ τ} {work : Attempts (World σ) α β} {o : Operation α}
  {w w' : World σ} {t : Turn (Operation α) (Except Failure β)}

/-- The world as the attempt of an operation leaves it in its turn. -/
def attempted (work : Attempts (World σ) α β) (o : Operation α) (w : World σ) : World σ :=
  match o.attempt? with
  | none => w
  | some a => (work.step a w).2

/-- **An operation counts the bytes that its attempt counts.** -/
theorem bytes_step (h : o.step s work w = (t, w')) : w'.bytes = (o.attempted work w).bytes := by
  obtain ⟨b, phase⟩ := o
  cases stage h with
  | begins hw =>
    rcases hw with hw | hw <;> subst hw <;> rfl
  | nears => rfl
  | refreshes hstep | stale hstep | renews hstep | renewed hstep | unrenewed hstep =>
    exact Renewal.bytes_step hstep
  | refreshed hstep =>
    have hbytes := Renewal.bytes_step hstep
    exact hbytes
  | works hstep | succeeds hstep | breaks hstep => simp only [attempted, attempt?, hstep]
  | exhausts hstep | rejects hstep | backsOff hstep =>
    simp only [attempted, attempt?, hstep]
    rfl
  | rests | wakes => rfl

theorem bytes_drop (hdrop : ∀ a (w : World σ), (work.drop a w).bytes = w.bytes) (o : Operation α)
    (w : World σ) : (o.drop work w).bytes = w.bytes := by
  unfold drop
  split
  · rfl
  · rfl
  · exact Renewal.bytes_drop _ w
  · exact Renewal.bytes_drop _ w
  · exact hdrop _ w

end Operation

namespace Fetch

variable {σ τ : Type} {s : Setting σ τ} {f : Fetch τ} {w w₁ w' : World σ}
  {t : Turn (Fetch τ) (Except Failure (List UInt8))}

/-- How many bytes an attempt drops in its turn. -/
def skipping (f : Fetch τ) : Nat :=
  match f.phase with
  | .looking | .parked _ | .opening _ _ _ _ => 0
  | .reading r => r.dropped

theorem skipping_of_reading {r : Reading} (hf : f.phase = .reading r) : f.skipping = r.dropped := by
  rw [skipping, hf]

theorem bytes_request (h : f.request s w = (t, w')) : w'.bytes = w.bytes := by
  simp only [request, World.issue_eq] at h
  cases h
  rfl

theorem bytes_read {idle : Duration} {r : Reading}
    {tr : Turn Reading (Except Failure (List UInt8) × Connection)}
    (h : r.step idle w = (tr, w')) :
    w'.bytes =
      (w.counters.bytesServed, (w.counters.bytesDiscarded + r.dropped) % counterLimit) := by
  have hdiscarded := Reading.discarded_step idle r w
  rw [h] at hdiscarded
  have hserved : (r.step idle w).2.counters.bytesServed = w.counters.bytesServed := by
    have hskip : (r.noteSkip w).counters.bytesServed = w.counters.bytesServed := by
      simp only [Reading.noteSkip]
      split <;> rfl
    simp only [Reading.step]
    split
    · exact hskip
    · split <;> exact hskip
  rw [h] at hserved
  exact Prod.ext hserved hdiscarded

/-- **An attempt counts the bytes that it drops.** -/
theorem bytes_step (h : f.step s w = (t, w')) (hfull : w.counters.bytesDiscarded < counterLimit) :
    w'.bytes =
      (w.counters.bytesServed, (w.counters.bytesDiscarded + f.skipping) % counterLimit) := by
  have hrest : ∀ {w₁ : World σ}, w₁.bytes = w.bytes → f.skipping = 0 → w₁.bytes =
      (w.counters.bytesServed, (w.counters.bytesDiscarded + f.skipping) % counterLimit) := by
    intro w₁ hbytes hnone
    rw [hbytes, hnone, Nat.add_zero, Nat.mod_eq_of_lt hfull]
    rfl
  cases turned h with
  | refused hf | rouses hf | dozes hf | expects hf | expires hf =>
    exact hrest rfl (by rw [skipping, hf])
  | reuses hf | parks hf => exact hrest (w.bytes_sweep s) (by rw [skipping, hf])
  | reserves hf _ _ hr | replaces hf _ _ hr =>
    have hrequest := bytes_request hr
    exact hrest (hrequest.trans (w.bytes_sweep s)) (by rw [skipping, hf])
  | denied hf hcol | opens hf hcol | wastes hf hcol =>
    have hcollect := World.bytes_of_collect hcol
    exact hrest hcollect (by rw [skipping, hf])
  | reads hf hr =>
    rw [skipping_of_reading hf]
    exact bytes_read hr
  | finishes hf hr =>
    rw [skipping_of_reading hf, World.bytes_giveBack]
    exact bytes_read hr
  | breaks hf hr =>
    rw [skipping_of_reading hf]
    have hread := bytes_read hr
    exact hread

theorem bytes_drop (s : Setting σ τ) (f : Fetch τ) (w : World σ) :
    (f.drop s w).bytes = w.bytes := by
  unfold drop
  split <;> rfl

end Fetch

namespace File

variable {σ τ : Type} {s : Setting σ τ} {shift : σ → σ → Prop} {w₀ : World σ}

theorem bytes_probe (s : Setting σ τ) (p : Probing τ) (w : World σ) :
    (p.step s w).2.bytes = w.bytes := by
  cases p with
  | unsent url =>
    simp only [Probing.step, World.issue_eq]
    rfl
  | sent ticket deadline =>
    simp only [Probing.step]
    split <;> rfl

theorem bytes_openStep {o : Opening τ} {w w' : World σ}
    {t : Turn (Opening τ) (Except Failure FileInfo)} (h : openStep s o w = (t, w')) :
    w'.bytes = w.bytes := by
  have hprobe : (o.probe.attempted (Probing.attempts s) w).bytes = w.bytes := by
    unfold Operation.attempted
    split
    · rfl
    · exact bytes_probe s _ w
  unfold openStep at h
  split at h <;> rename_i hstep <;> have hbytes := Operation.bytes_step hstep <;> cases h <;>
    exact hbytes.trans hprobe

/-- **Opening a file counts no bytes.** -/
theorem bytes_of_opening {o : Crowd (World σ) Url (Opening τ) (Except Failure FileInfo)}
    (h : Crowd.Reachable (rules s shift) (Crowd.empty w₀) o) : o.world.bytes = w₀.bytes := by
  refine (h.separate (W := fun w => w.bytes = w₀.bytes) (E := fun _ _ => True)
    (T := fun _ _ _ => True) (R := fun _ _ => True) ⟨?_, ?_, ?_, ?_, ?_⟩ rfl).1
  · exact fun _ _ => trivial
  · exact fun _ _ => trivial
  · intro w w' _ o t hw _ hstep
    exact ⟨(bytes_openStep hstep).trans hw, trivial, fun _ _ => trivial, fun _ _ => trivial⟩
  · intro w _ o hw _
    exact ⟨(Operation.bytes_drop (fun _ _ => rfl) o.probe w).trans hw, trivial⟩
  · intro w w' hw hout
    cases hout <;> exact ⟨hw, trivial⟩

/-- **Opening a file touches no connection.** -/
theorem unread_of_opening {o : Crowd (World σ) Url (Opening τ) (Except Failure FileInfo)}
    (h : Crowd.Reachable (rules s shift) (Crowd.empty w₀) o) : w₀.Unread o.world := by
  refine related (R := World.Unread) (fun _ => ⟨rfl, rfl, rfl, rfl, rfl, rfl⟩)
    (fun h h' => h.trans h') (fun h => h.beside.unread) (fun {p t w w'} h => ?_) (fun h => ?_) h
  · cases p with
    | unsent url =>
      simp only [Probing.step, World.issue_eq] at h
      cases h
      exact ⟨rfl, rfl, rfl, rfl, rfl, rfl⟩
    | sent ticket deadline =>
      simp only [Probing.step] at h
      split at h <;> cases h <;> exact ⟨rfl, rfl, rfl, rfl, rfl, rfl⟩
  · cases h <;> exact ⟨rfl, rfl, rfl, rfl, rfl, rfl⟩

end File

end RemoteFile
