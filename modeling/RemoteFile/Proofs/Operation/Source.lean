import RemoteFile.Proofs.Operation.Turn
import RemoteFile.Proofs.World.Requests

/-!
# Where the URL of an attempt comes from

An operation takes the current URL whenever it begins an attempt, be it after a renewal ahead of
expiry or without one. Apart from its attempts it makes no request for a range.

Main statement:

* `Operation.sourced` : an attempt begins with the URL that is current then.
-/

namespace RemoteFile

namespace Operation

variable {σ τ α β : Type}

/-- What a turn of an operation does to the requests and to the URL. -/
inductive Sourced (work : Attempts (World σ) α β) (o : Operation α) (w : World σ) :
    Turn (Operation α) (Except Failure β) → World σ → Prop
  /-- No attempt is under way. -/
  | aside {t : Turn (Operation α) (Except Failure β)} {w' : World σ} (ho : o.attempt? = none)
      (hw : w.Quiet w') (hnext : t.next?.bind attempt? = none) : Sourced work o w t w'
  /-- An attempt begins, with the current URL. -/
  | begins {t : Turn (Operation α) (Except Failure β)} {w' : World σ} {number : Nat}
      (ho : o.attempt? = none) (hw : w.Quiet w')
      (hnext : t.next?.bind attempt? = some (work.start number w'.resolver.current)) :
      Sourced work o w t w'
  /-- The attempt takes a turn. -/
  | works {t : Turn (Operation α) (Except Failure β)} {ta : Turn α (Except Failure β)} {a : α}
      {w' : World σ} (ho : o.attempt? = some a) (ha : work.step a w = (ta, w'))
      (hnext : t.next?.bind attempt? = ta.next?) : Sourced work o w t w'
  /-- The attempt ends, and the operation goes on without a request. -/
  | ends {t : Turn (Operation α) (Except Failure β)} {b : Except Failure β} {a : α}
      {w₁ w' : World σ} (ho : o.attempt? = some a) (ha : work.step a w = (.done b, w₁))
      (hw : w₁.Quiet w') (hnext : t.next?.bind attempt? = none) : Sourced work o w t w'

variable {s : Setting σ τ} {work : Attempts (World σ) α β} {o : Operation α} {w w₁ w' : World σ}
  {t : Turn (Operation α) (Except Failure β)}

theorem sourced_attempt (ho : o.attempt? = none) (hw : w.Quiet w₁)
    (h : o.attempt work w₁.resolver.current w₁ = (t, w')) : Sourced work o w t w' := by
  cases h
  exact .begins ho (hw.trans (.of_eq rfl rfl rfl)) rfl

theorem sourced_choose (ho : o.attempt? = none) (h : o.choose s work w = (t, w')) :
    Sourced work o w t w' := by
  simp only [choose] at h
  split at h
  · exact sourced_attempt ho (.refl w) h
  · split at h
    · split at h
      · exact sourced_attempt ho ((World.Quiet.refl w).note _) h
      · exact sourced_attempt ho (.refl w) h
    · cases h
      exact .aside ho ((World.Quiet.refl w).note _) rfl

theorem quiet_recover {f : Failure} {used : Source} (h : o.recover s f used w = (t, w')) :
    w.Quiet w' ∧ t.next?.bind attempt? = none := by
  simp only [recover] at h
  split at h
  · split at h <;> cases h
    · exact ⟨(World.Quiet.refl w).note _, rfl⟩
    · exact ⟨.refl w, rfl⟩
  · cases h
    exact ⟨((World.Quiet.refl w).note _).count (f := Counters.retried) fun _ => rfl, rfl⟩
  · cases h
    refine ⟨.of_eq rfl rfl rfl, ?_⟩
    cases s.rests <;> rfl

/-- **An attempt begins with the URL that is current then.** -/
theorem sourced (h : o.step s work w = (t, w')) : Sourced work o w t w' := by
  obtain ⟨budget, phase⟩ := o
  unfold step at h
  cases phase with
  | choosing => exact sourced_choose rfl h
  | refreshing r =>
    rcases hstep : r.step s w with ⟨tr, w₁⟩
    have hw := Renewal.quiet_step hstep
    simp only [hstep] at h
    split at h <;> rename_i heq <;> cases heq
    · cases h
      exact .aside rfl hw rfl
    · cases h
      exact .aside rfl hw rfl
    · -- the attempt is made with the URL that the renewal has ended with
      rw [Renewal.current_of_done hstep] at h
      exact sourced_attempt rfl hw h
    · cases h
      exact .aside rfl hw rfl
  | attempting used a =>
    rcases hstep : work.step a w with ⟨ta, w₁⟩
    simp only [hstep] at h
    split at h <;> rename_i heq <;> cases heq
    · cases h
      exact .works rfl hstep rfl
    · cases h
      exact .works rfl hstep rfl
    · cases h
      exact .works rfl hstep rfl
    · obtain ⟨hw, hnext⟩ := quiet_recover h
      exact .ends rfl hstep hw hnext
  | renewing r =>
    rcases hstep : r.step s w with ⟨tr, w₁⟩
    have hw := Renewal.quiet_step hstep
    simp only [hstep] at h
    split at h <;> rename_i heq <;> cases heq <;> cases h <;> exact .aside rfl hw rfl
  | resting due =>
    dsimp only at h
    split at h <;> cases h <;> exact .aside rfl (.refl w) rfl

theorem quiet_drop (s : Setting σ τ) (hwork : ∀ a (w : World σ), w.Quiet (work.drop a w))
    (o : Operation α) (w : World σ) : w.Quiet (o.drop work w) := by
  unfold drop
  split
  · exact .refl w
  · exact .refl w
  · exact Renewal.quiet_drop s _ w
  · exact Renewal.quiet_drop s _ w
  · exact hwork _ w

end Operation

end RemoteFile
