import Mathlib.Order.OrderIsoNat
import RemoteFile.Proofs.Operation.Course

/-!
# An operation ends

From one stage to the next an operation draws nearer to its end, which is measured by `rank`: the
attempts that are left count most, and then the stage that it is in. It stays where it is only in
an attempt, in a renewal, or in a rest that goes on. So it ends, unless one of these never does.

Main statements:

* `Operation.rank_turn` : a turn lowers the rank, or the operation lingers.
* `Operation.endless` : an operation that takes turns forever lingers in one place.
-/

namespace RemoteFile

namespace Operation

variable {σ τ α β : Type} {s : Setting σ τ} {work : Attempts (World σ) α β}
  {o o' : Operation α} {w w' : World σ} {t : Turn (Operation α) (Except Failure β)}

/-- The attempt that is under way goes on. -/
def Works (work : Attempts (World σ) α β) (o : Operation α) (w : World σ) (o' : Operation α) :
    Prop :=
  ∃ used a a', o.phase = .attempting used a ∧ o'.phase = .attempting used a' ∧
    (work.step a w).1.next? = some a'

/-- The renewal that is under way goes on. -/
def Renews (s : Setting σ τ) (o : Operation α) (w : World σ) (o' : Operation α) : Prop :=
  ∃ r r', o.renewal? = some r ∧ o'.renewal? = some r' ∧ (r.step s w).1.next? = some r'

/-- The operation goes on resting until this time. -/
def Rests (due : Nat) (o : Operation α) (w : World σ) (o' : Operation α) : Prop :=
  o.phase = .resting due ∧ o'.phase = .resting due ∧ w.now < due

/-- The operation goes on with what it was at. -/
def Lingers (s : Setting σ τ) (work : Attempts (World σ) α β) (o : Operation α) (w : World σ)
    (o' : Operation α) : Prop :=
  Works work o w o' ∨ Renews s o w o' ∨ ∃ due, Rests due o w o'

/-- How far a stage is from the end of its attempt. -/
def Phase.rank : Phase α → Nat
  | .resting _ | .renewing _ => 4
  | .choosing => 3
  | .refreshing _ => 2
  | .attempting _ _ => 1

/-- How far an operation is from its end: each attempt that is left takes four stages. -/
def rank (policy : RetryPolicy) (o : Operation α) : Nat :=
  4 * (policy.maxAttempts - o.budget.attempts) + o.phase.rank

theorem rank_lt (policy : RetryPolicy) (b : Budget) {p p' : Phase α} (h : p'.rank < p.rank) :
    rank policy ⟨b, p'⟩ < rank policy ⟨b, p⟩ :=
  Nat.add_lt_add_left h _

/-- **A turn lowers the rank, or the operation goes on with what it was at.** -/
theorem rank_turn (hturn : step s work o w = (t, w')) (ht : t.next? = some o') :
    o'.rank s.options.retry < o.rank s.options.retry ∨
      Lingers s work o w o' ∧ o'.rank s.options.retry = o.rank s.options.retry := by
  obtain ⟨b, phase⟩ := o
  cases stage hturn with
  | begins hw =>
    cases ht
    exact .inl (rank_lt _ b (by decide : 1 < 3))
  | nears hearly =>
    cases ht
    exact .inl (rank_lt _ b (by decide : 2 < 3))
  | refreshes h hr ht' | renews h hr ht' =>
    cases ht'.symm.trans ht
    refine .inr ⟨.inr (.inl ⟨_, _, rfl, rfl, ?_⟩), rfl⟩
    rw [h, hr]
  | refreshed h =>
    cases ht
    exact .inl (rank_lt _ b (by decide : 1 < 2))
  | works h ha ht' =>
    cases ht'.symm.trans ht
    refine .inr ⟨.inl ⟨_, _, _, rfl, rfl, ?_⟩, rfl⟩
    rw [h, ha]
  | rejects h hf hb hr =>
    cases ht
    -- one attempt less is left, which outweighs the stage
    simp only [rank, Phase.rank]
    omega
  | backsOff h hf hb hphase =>
    cases ht
    rcases hphase with rfl | ⟨due, rfl⟩ <;> simp only [rank, Phase.rank] <;> omega
  | renewed h | wakes h =>
    cases ht
    exact .inl (rank_lt _ b (by decide : 3 < 4))
  | rests h =>
    cases ht
    exact .inr ⟨.inr (.inr ⟨_, rfl, rfl, h⟩), rfl⟩
  | stale | succeeds | breaks | exhausts | unrenewed => cases ht

/-! ### Where an operation lingers -/

section

variable {o'' : Operation α}

theorem Works.next (h : Works work o w o') (h' : Lingers s work o' w' o'') :
    Works work o' w' o'' := by
  obtain ⟨used, a, a', -, ho', -⟩ := h
  rcases h' with hworks | ⟨r, r', hr, -⟩ | ⟨due, hdue, -⟩
  · exact hworks
  · simp only [renewal?, ho', reduceCtorEq] at hr
  · rw [ho'] at hdue
    cases hdue

theorem Renews.next (h : Renews s o w o') (h' : Lingers s work o' w' o'') :
    Renews s o' w' o'' := by
  obtain ⟨r, r', -, hr', -⟩ := h
  rcases h' with ⟨used, a, a', ho', -⟩ | hrenews | ⟨due, hdue, -⟩
  · simp only [renewal?, ho', reduceCtorEq] at hr'
  · exact hrenews
  · simp only [renewal?, hdue, reduceCtorEq] at hr'

theorem Rests.next {due : Nat} (h : Rests due o w o') (h' : Lingers s work o' w' o'') :
    Rests due o' w' o'' := by
  obtain ⟨-, hdue, -⟩ := h
  rcases h' with ⟨used, a, a', ho', -⟩ | ⟨r, r', hr, -⟩ | ⟨due', hrests⟩
  · rw [ho'] at hdue
    cases hdue
  · simp only [renewal?, hdue, reduceCtorEq] at hr
  · have heq := hrests.1.symm.trans hdue
    cases heq
    exact hrests

end

/-- **An operation that takes turns forever lingers in one place from some turn on.**  Either one
attempt never ends, or one renewal, or the time that it rests until never comes. -/
theorem endless {os : Nat → Operation α} {ws : Nat → World σ}
    (h : ∀ i, ((os i).step s work (ws i)).1.next? = some (os (i + 1))) :
    ∃ n, (∀ i, n ≤ i → Works work (os i) (ws i) (os (i + 1))) ∨
      (∀ i, n ≤ i → Renews s (os i) (ws i) (os (i + 1))) ∨
      ∃ due, ∀ i, n ≤ i → Rests due (os i) (ws i) (os (i + 1)) := by
  let f : Nat → Nat := fun i => (os i).rank s.options.retry
  have hle : ∀ i, f (i + 1) ≤ f i := fun i =>
    (rank_turn rfl (h i)).elim Nat.le_of_lt fun hlingers => Nat.le_of_eq hlingers.2
  -- a number cannot be lowered forever
  obtain ⟨n, hn⟩ := WellFoundedGT.monotone_chain_condition
    (⟨fun i => OrderDual.toDual (f i), antitone_nat_of_succ_le hle⟩ : ℕ →o ℕᵒᵈ)
  have hsame : ∀ i, n ≤ i → f n = f i := hn
  have hlingers : ∀ i, n ≤ i → Lingers s work (os i) (ws i) (os (i + 1)) := by
    intro i hi
    rcases rank_turn rfl (h i) with hlt | ⟨hlingers, -⟩
    · have heq : f (i + 1) = f i := (hsame _ (Nat.le_succ_of_le hi)).symm.trans (hsame i hi)
      exact absurd hlt (Nat.not_lt_of_ge (Nat.le_of_eq heq.symm))
    · exact hlingers
  refine ⟨n, ?_⟩
  rcases hlingers n (Nat.le_refl n) with hworks | hrenews | ⟨due, hrests⟩
  · refine .inl fun i hi => ?_
    induction i, hi using Nat.le_induction with
    | base => exact hworks
    | succ i hi ih => exact ih.next (hlingers (i + 1) (Nat.le_succ_of_le hi))
  · refine .inr (.inl fun i hi => ?_)
    induction i, hi using Nat.le_induction with
    | base => exact hrenews
    | succ i hi ih => exact ih.next (hlingers (i + 1) (Nat.le_succ_of_le hi))
  · refine .inr (.inr ⟨due, fun i hi => ?_⟩)
    induction i, hi using Nat.le_induction with
    | base => exact hrests
    | succ i hi ih => exact ih.next (hlingers (i + 1) (Nat.le_succ_of_le hi))

end Operation

end RemoteFile
