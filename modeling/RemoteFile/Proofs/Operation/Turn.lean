import RemoteFile.Operation
import RemoteFile.Proofs.Crowd
import RemoteFile.Proofs.World

/-!
# What a turn of an operation does

An operation touches the pool and the transport only through its attempts. All else that it does,
taking a URL, renewing it, waiting, deciding whether to try again, leaves them as they are: it is
`Beside` them. `Operation.Turned` lists what a turn of an operation comes to in these terms.

Main statements:

* `Renewal.beside_step` : a renewal leaves the pool and the transport as they are.
* `Operation.turned` : a turn of an operation is one of its attempt, or goes on beside the pool.
-/

namespace RemoteFile

namespace Renewal

variable {σ τ : Type} {s : Setting σ τ} {r : Renewal} {w w' : World σ}
  {t : Turn Renewal (Except Failure Source)}

theorem beside_takeTurn {seen ticket : Nat} (h : r.takeTurn s seen ticket w = (t, w')) :
    w.Beside w' := by
  simp only [takeTurn] at h
  split at h
  · cases h
    exact (World.Beside.refl w).resolve _
  · split at h
    · cases h
      exact ((World.Beside.refl w).note _).resolve _
    · split at h
      · cases h
        exact (World.Beside.refl w).resolve _
      · cases h
        exact ((World.Beside.refl w).record _).resolve _

theorem beside_complete {ticket : Nat} {outcome : Except Failure FreshUrl}
    (h : r.complete s ticket outcome w = (t, w')) : w.Beside w' := by
  simp only [complete] at h
  split at h
  · cases h
    exact ((World.Beside.refl w).note _).resolve _
  · cases h
    exact (((World.Beside.refl w).count (f := Counters.renewed) fun _ => rfl).resolve _).note _

/-- A renewal leaves the pool and the transport as they are. -/
theorem beside_step (h : r.step s w = (t, w')) : w.Beside w' := by
  unfold step at h
  split at h
  · cases h
    exact (World.Beside.refl w).resolve _
  · split at h
    · exact beside_takeTurn h
    · cases h
      exact .refl w
  · split at h
    · exact beside_complete h
    · cases h
      exact .refl w

theorem beside_drop (r : Renewal) (w : World σ) : w.Beside (r.drop w) := by
  unfold drop
  split
  · exact .refl w
  · exact (World.Beside.refl w).resolve _
  · exact (World.Beside.refl w).resolve _

end Renewal

namespace Operation

variable {σ τ α β : Type}

/-- The attempt that is under way. -/
def attempt? (o : Operation α) : Option α :=
  match o.phase with
  | .attempting _ a => some a
  | .choosing | .refreshing _ | .renewing _ | .resting _ => none

/-- What a turn of an operation comes to. -/
inductive Turned (work : Attempts (World σ) α β) (o : Operation α) (w : World σ) :
    Turn (Operation α) (Except Failure β) → World σ → Prop
  /-- No attempt is under way; one may begin. -/
  | aside {t : Turn (Operation α) (Except Failure β)} {w' : World σ} (ho : o.attempt? = none)
      (hw : w.Beside w')
      (hnext : ∀ o', t.next? = some o' →
        o'.attempt? = none ∨ ∃ source, o'.attempt? = some (work.start o'.budget.attempts source))
      (hend : ∀ b, t ≠ .done (.ok b)) : Turned work o w t w'
  /-- The attempt takes a turn and goes on. -/
  | goesOn {t : Turn (Operation α) (Except Failure β)} {ta : Turn α (Except Failure β)} {a a' : α}
      {o' : Operation α} {w' : World σ} (ho : o.attempt? = some a)
      (ha : work.step a w = (ta, w')) (hta : ta.next? = some a') (ht : t.next? = some o')
      (ho' : o'.attempt? = some a') : Turned work o w t w'
  /-- The attempt succeeds, and so does the operation. -/
  | succeeds {a : α} {b : β} {w' : World σ} (ho : o.attempt? = some a)
      (ha : work.step a w = (.done (.ok b), w')) : Turned work o w (.done (.ok b)) w'
  /-- The attempt fails; the operation ends, or goes on without an attempt. -/
  | fails {t : Turn (Operation α) (Except Failure β)} {a : α} {f : Failure} {w₁ w' : World σ}
      (ho : o.attempt? = some a) (ha : work.step a w = (.done (.error f), w₁))
      (hw : w₁.Beside w') (hnext : ∀ o', t.next? = some o' → o'.attempt? = none)
      (hend : ∀ b, t ≠ .done (.ok b)) : Turned work o w t w'

section

variable {s : Setting σ τ} {work : Attempts (World σ) α β} {o : Operation α} {w w₁ w' : World σ}
  {t : Turn (Operation α) (Except Failure β)}

theorem turned_attempt {source : Source} (ho : o.attempt? = none) (hw : w.Beside w₁)
    (h : o.attempt work source w₁ = (t, w')) : Turned work o w t w' := by
  cases h
  refine .aside ho (hw.record _) (fun o' h => .inr ⟨source, ?_⟩) nofun
  cases h
  rfl

theorem Turned.rests {o' : Operation α} (ho : o.attempt? = none) (ho' : o'.attempt? = none)
    (hw : w.Beside w') (ht : t.next? = some o') : Turned work o w t w' := by
  refine .aside ho hw (fun o₁ h => .inl ?_) ?_
  · rw [ht] at h
    cases h
    exact ho'
  · rintro b rfl
    cases ht

theorem Turned.breaks {a : α} {f : Failure} (ho : o.attempt? = some a)
    (ha : work.step a w = (.done (.error f), w₁)) (hw : w₁.Beside w') (e : Failure) :
    Turned work o w (.done (.error e)) w' :=
  .fails ho ha hw nofun nofun

theorem Turned.recovers {a : α} {f : Failure} {o' : Operation α} (ho : o.attempt? = some a)
    (ha : work.step a w = (.done (.error f), w₁)) (ho' : o'.attempt? = none)
    (hw : w₁.Beside w') : Turned work o w (.moved o') w' := by
  refine .fails ho ha hw (fun o₁ h => ?_) nofun
  cases h
  exact ho'

theorem turned_choose (ho : o.attempt? = none) (h : o.choose s work w = (t, w')) :
    Turned work o w t w' := by
  simp only [choose] at h
  split at h
  · exact turned_attempt ho (.refl w) h
  · split at h
    · split at h
      · exact turned_attempt ho ((World.Beside.refl w).note _) h
      · exact turned_attempt ho (.refl w) h
    · cases h
      exact .rests ho rfl ((World.Beside.refl w).note _) rfl

theorem turned_recover {f : Failure} {used : Source} {a : α} (ho : o.attempt? = some a)
    (ha : work.step a w = (.done (.error f), w₁)) (h : o.recover s f used w₁ = (t, w')) :
    Turned work o w t w' := by
  simp only [recover] at h
  split at h
  · split at h <;> cases h
    · exact .breaks ho ha ((World.Beside.refl w₁).note _) _
    · exact .breaks ho ha (.refl w₁) _
  · cases h
    exact .recovers ho ha rfl (((World.Beside.refl w₁).note _).count (f := Counters.retried)
      fun _ => rfl)
  · cases h
    refine .recovers ho ha ?_ ⟨rfl, rfl, rfl, rfl, rfl, rfl⟩
    cases s.rests <;> rfl

/-- **What a turn of an operation comes to.**  It is a turn of the attempt that is under way, or it
leaves the pool and the transport as they are. -/
theorem turned (h : o.step s work w = (t, w')) : Turned work o w t w' := by
  obtain ⟨budget, phase⟩ := o
  unfold step at h
  cases phase with
  | choosing => exact turned_choose rfl h
  | refreshing r =>
    -- a renewal that succeeds goes over into the attempt that it was made for
    rcases hstep : r.step s w with ⟨tr, w₁⟩
    have hw := Renewal.beside_step hstep
    simp only [hstep] at h
    split at h <;> rename_i heq <;> cases heq
    · cases h
      exact .rests rfl rfl hw rfl
    · cases h
      exact .rests rfl rfl hw rfl
    · exact turned_attempt rfl hw h
    · cases h
      exact .aside rfl hw nofun nofun
  | attempting used a =>
    rcases hstep : work.step a w with ⟨ta, w₁⟩
    simp only [hstep] at h
    split at h <;> rename_i heq <;> cases heq
    · cases h
      exact .goesOn rfl hstep rfl rfl rfl
    · cases h
      exact .goesOn rfl hstep rfl rfl rfl
    · cases h
      exact .succeeds rfl hstep
    · exact turned_recover rfl hstep h
  | renewing r =>
    rcases hstep : r.step s w with ⟨tr, w₁⟩
    have hw := Renewal.beside_step hstep
    simp only [hstep] at h
    split at h <;> rename_i heq <;> cases heq <;> cases h
    · exact .rests rfl rfl hw rfl
    · exact .rests rfl rfl hw rfl
    · exact .rests rfl rfl hw rfl
    · exact .aside rfl hw nofun nofun
  | resting due =>
    dsimp only at h
    split at h <;> cases h <;> exact .rests rfl rfl (.refl w) rfl

end

theorem drop_of_attempt? {work : Attempts (World σ) α β} {o : Operation α} {a : α}
    (h : o.attempt? = some a) (w : World σ) : o.drop work w = work.drop a w := by
  unfold attempt? at h
  unfold drop
  split at h
  · cases h
    simp_all
  all_goals cases h

theorem beside_drop {work : Attempts (World σ) α β} {o : Operation α} (h : o.attempt? = none)
    (w : World σ) : w.Beside (o.drop work w) := by
  unfold attempt? at h
  unfold drop
  split
  · exact .refl w
  · exact .refl w
  · exact Renewal.beside_drop _ w
  · exact Renewal.beside_drop _ w
  · simp_all

end Operation

end RemoteFile
