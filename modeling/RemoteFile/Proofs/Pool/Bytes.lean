import RemoteFile.Proofs.Fetch.Record

/-!
# The bytes of a read through the pool

A read through the pool drops and copies bytes by its attempts only. It succeeds with what its last
attempt has copied; what an attempt has copied that fails is copied once more, or not at all.

Main statements:

* `PoolRead.turned` : a turn of a read is one of its attempt, or counts no bytes.
* `PoolRead.tracks_step` : a turn of a read keeps the record of all connections.
-/

namespace RemoteFile

/-- The task has ended with a failure. -/
def Turn.failed {α β ε : Type} : Turn α (Except ε β) → Bool
  | .done (.error _) => true
  | .done (.ok _) | .moved _ | .waits _ _ => false

namespace PoolRead

variable {σ τ : Type} {s : Setting σ τ} {p : PoolRead τ} {w w' : World σ}
  {t : Turn (PoolRead τ) (Except Failure (List UInt8))}

/-- What a turn of a read comes to. -/
inductive Turned (s : Setting σ τ) (p : PoolRead τ) (w : World σ) :
    Turn (PoolRead τ) (Except Failure (List UInt8)) → World σ → Prop
  /-- No attempt is under way; one may begin. -/
  | aside {t : Turn (PoolRead τ) (Except Failure (List UInt8))} {w' : World σ}
      (hp : p.attempt? = none) (hw : w.Beside w') (hbytes : w'.bytes = w.bytes)
      (hnext : ∀ f, t.next?.bind attempt? = some f → f.phase = .looking)
      (hend : ∀ bytes, t ≠ .done (.ok bytes)) : Turned s p w t w'
  /-- The attempt takes a turn and goes on. -/
  | goesOn {t : Turn (PoolRead τ) (Except Failure (List UInt8))} {w' : World σ} {f f' : Fetch τ}
      {tf : Turn (Fetch τ) (Except Failure (List UInt8))} (hp : p.attempt? = some f)
      (hf : f.step s w = (tf, w')) (htf : tf.next? = some f')
      (hnext : t.next?.bind attempt? = some f') (hend : ∀ b, t ≠ .done b) : Turned s p w t w'
  /-- The attempt succeeds, and so does the read. -/
  | succeeds {w' : World σ} {f : Fetch τ} {bytes : List UInt8} (hp : p.attempt? = some f)
      (hf : f.step s w = (.done (.ok bytes), w')) : Turned s p w (.done (.ok bytes)) w'
  /-- The attempt fails; the read ends, or goes on without an attempt. -/
  | fails {t : Turn (PoolRead τ) (Except Failure (List UInt8))} {w₁ w' : World σ} {f : Fetch τ}
      {e : Failure} (hp : p.attempt? = some f) (hf : f.step s w = (.done (.error e), w₁))
      (hw : w₁.Beside w') (hbytes : w'.bytes = w₁.bytes)
      (hnext : t.next?.bind attempt? = none) (hend : ∀ bytes, t ≠ .done (.ok bytes)) :
      Turned s p w t w'

/-- **What a turn of a read comes to.** -/
theorem turned (h : p.step s w = (t, w')) : Turned s p w t w' := by
  obtain ⟨ot, hstep, hnext, hdone⟩ := next?_step h
  have hbytes := Operation.bytes_step hstep
  have hbind : t.next?.bind attempt? = ot.next?.bind Operation.attempt? := by
    rw [hnext]
    cases ot.next? <;> rfl
  cases Operation.turned hstep with
  | aside ho hw hgo hend =>
    rw [Operation.attempted, ho] at hbytes
    refine .aside ho hw hbytes (fun f hf => ?_) fun bytes hb => hend bytes ((hdone _).1 hb)
    rw [hbind] at hf
    obtain ⟨o', ho', hf⟩ := Option.bind_eq_some_iff.1 hf
    rcases hgo o' ho' with hnone | ⟨source, hsome⟩
    · cases hnone.symm.trans hf
    · cases hsome.symm.trans hf
      rfl
  | goesOn ho ha hta hto ho' =>
    refine .goesOn ho ha hta ?_ fun b hb => ?_
    · rw [hbind, hto]
      exact ho'
    · rw [(hdone b).1 hb] at hto
      cases hto
  | succeeds ho ha =>
    cases (hdone _).2 rfl
    exact .succeeds ho ha
  | fails ho ha hw hgo hend =>
    have ha' : (Fetch.attempts s p.offset p.len).step _ w = _ := ha
    rw [Operation.attempted, ho] at hbytes
    simp only [ha'] at hbytes
    refine .fails ho ha hw hbytes ?_ fun bytes hb => hend bytes ((hdone _).1 hb)
    rw [hbind]
    cases hot : ot.next? with
    | none => rfl
    | some o' => exact hgo o' hot

/-- A read drops bytes, and copies them, by its attempts. -/
theorem tracks_step (h : p.step s w = (t, w')) :
    Fetch.Tracks s w p.attempt? p.attempt? w' (t.next?.bind attempt?) := by
  cases turned h with
  | aside hp hw hbytes hnext =>
    rw [hp]
    exact .aside none hw (congrArg Prod.snd hbytes) hnext
  | goesOn hp hf htf hnext =>
    rw [hp, hnext, ← htf]
    exact .moves hf (.refl _) rfl
  | succeeds hp hf =>
    rw [hp]
    exact .moves hf (.refl _) rfl
  | fails hp hf hw hbytes hnext =>
    rw [hp, hnext]
    exact .moves hf hw (congrArg Prod.snd hbytes)

theorem bytes_drop (s : Setting σ τ) (p : PoolRead τ) (w : World σ) :
    (p.drop s w).bytes = w.bytes :=
  Operation.bytes_drop (Fetch.bytes_drop s) p.operation w

theorem tracks_drop (s : Setting σ τ) (p : PoolRead τ) (w : World σ) :
    Fetch.Tracks s w p.attempt? none (p.drop s w) none := by
  have hdropped := congrArg Prod.snd (bytes_drop s p w)
  cases hp : p.attempt? with
  | none => exact .aside none (Operation.beside_drop hp w) hdropped nofun
  | some f =>
    have hdrop : p.drop s w = f.drop s w := Operation.drop_of_attempt? hp w
    rw [hdrop] at hdropped ⊢
    refine .rests nofun (fun e he => ?_) (Fetch.manages_drop s f w).nextId_le ?_ hdropped
    · rw [Fetch.idle_drop] at he
      exact he
    · unfold Fetch.drop
      split <;> rfl

theorem served_step (h : p.step s w = (t, w')) (hfull : w.counters.bytesDiscarded < counterLimit) :
    w'.counters.bytesServed = w.counters.bytesServed := by
  cases turned h with
  | aside _ _ hbytes => exact congrArg Prod.fst hbytes
  | goesOn _ hf | succeeds _ hf => exact congrArg Prod.fst (Fetch.bytes_step hf hfull)
  | fails _ hf _ hbytes =>
    exact (congrArg Prod.fst hbytes).trans (congrArg Prod.fst (Fetch.bytes_step hf hfull))

theorem inHand_step {p' : PoolRead τ} (h : p.step s w = (t, w'))
    (hl : ∀ f, p.attempt? = some f → (f.step s w).1.failed = false) (ht : t.next? = some p') :
    p'.attempt?.elim 0 Fetch.inHand =
      p.attempt?.elim 0 Fetch.inHand + p.attempt?.elim 0 Fetch.copying := by
  cases turned h with
  | aside hp _ _ hnext =>
    rw [ht, Option.bind_some] at hnext
    rw [hp]
    cases hp' : p'.attempt? with
    | none => rfl
    | some f => exact Fetch.inHand_of_looking (hnext f hp')
  | goesOn hp hf htf hnext =>
    rw [ht, Option.bind_some] at hnext
    rw [hp, hnext]
    exact Fetch.inHand_step hf htf
  | succeeds => cases ht
  | fails hp hf =>
    have hfailed := hl _ hp
    rw [hf] at hfailed
    cases hfailed

theorem inHand_done {bytes : List UInt8} (h : p.step s w = (.done (.ok bytes), w')) :
    bytes.length = p.attempt?.elim 0 Fetch.inHand + p.attempt?.elim 0 Fetch.copying := by
  cases turned h with
  | aside _ _ _ _ hend => exact absurd rfl (hend bytes)
  | goesOn _ _ _ _ hend => exact absurd rfl (hend _)
  | succeeds hp hf =>
    rw [hp]
    exact Fetch.inHand_done hf
  | fails _ _ _ _ _ hend => exact absurd rfl (hend bytes)

end PoolRead

end RemoteFile
