import RemoteFile.Operation
import RemoteFile.Proofs.World

/-!
# What is entered into the journal

The journal only grows, and each event in it tells who has done something. Calls to the transport,
and connections that come and go, are told by attempts. The renewal of a URL, and the decision to
try again, are told by events of their own. `World.Tells` says of what kind all events are that
were entered meanwhile.

Main statements:

* `World.Tells.filterMap_eq` : what is read off other events stays the same.
* `Renewal.tells_step` : a renewal tells of renewals only.
* `Event.ofRetrying_of_ofRenewal` : renewals are a part of trying again.
-/

namespace RemoteFile

namespace Event

/-- Does the event tell of a renewal? -/
def ofRenewal : Event → Bool
  | .renewerCall => true
  | .notice (.sharingFailure _) | .notice (.renewalFailed _ _) | .notice (.renewedExpired _)
  | .notice (.renewed _ _) => true
  | .notice _ | .call _ | .sleep _ | .attempt _ _ => false

/-- Does the event tell of what an operation does besides its attempts? -/
def ofRetrying : Event → Bool
  | .sleep _ | .attempt _ _ => true
  | .notice (.budgetExhausted _ _) | .notice (.rejected _ _) | .notice (.retrying _ _ _)
  | .notice (.usingExpired _) | .notice (.aboutToExpire _) => true
  | e => e.ofRenewal

/-- Renewals are a part of trying again. -/
theorem ofRetrying_of_ofRenewal {e : Event} (h : e.ofRenewal = true) : e.ofRetrying = true := by
  unfold ofRetrying
  split
  all_goals first | rfl | exact h

/-- Is the event a delay that is handed to the sleeper? -/
def isSleep : Event → Bool
  | .sleep _ => true
  | .notice _ | .call _ | .renewerCall | .attempt _ _ => false

theorem not_isSleep_of_ofRenewal {e : Event} (h : e.ofRenewal = true) : (!e.isSleep) = true := by
  cases e with
  | sleep d => cases h
  | notice n | call c | renewerCall | attempt url generation => rfl

theorem delays_eq_nil {l : List Event} (h : ∀ e ∈ l, (!e.isSleep) = true) : delays l = [] := by
  refine List.filterMap_eq_nil_iff.2 fun e he => ?_
  have hsleep := h e he
  cases e with
  | sleep d => cases hsleep
  | notice n | call c | renewerCall | attempt url generation => rfl

end Event

namespace World

variable {σ τ : Type}

theorem since_of_journal {w w' : World σ} {l : List Event} (h : w'.journal = l ++ w.journal) :
    w'.since w.journal.length = l.reverse := by
  rw [since, h, List.length_append, Nat.add_sub_cancel, List.take_left]

/-- All events that were entered into the journal meanwhile are of the kind `p`. -/
def Tells (p : Event → Bool) (w w' : World σ) : Prop :=
  ∃ l, w'.journal = l ++ w.journal ∧ ∀ e ∈ l, p e = true

namespace Tells

variable {p q : Event → Bool} {w w₁ w' : World σ}

theorem of_eq (h : w'.journal = w.journal) : w.Tells p w' := ⟨[], h, nofun⟩

theorem refl (p : Event → Bool) (w : World σ) : w.Tells p w := .of_eq rfl

theorem trans (h : w.Tells p w₁) (h' : w₁.Tells p w') : w.Tells p w' := by
  obtain ⟨l, hl, hp⟩ := h
  obtain ⟨l', hl', hp'⟩ := h'
  refine ⟨l' ++ l, by rw [hl', hl, List.append_assoc], fun e he => ?_⟩
  rcases List.mem_append.1 he with he | he
  · exact hp' e he
  · exact hp e he

theorem mono (h : w.Tells p w') (hpq : ∀ e, p e = true → q e = true) : w.Tells q w' := by
  obtain ⟨l, hl, hp⟩ := h
  exact ⟨l, hl, fun e he => hpq e (hp e he)⟩

theorem record (h : w.Tells p w₁) {e : Event} (he : p e = true) : w.Tells p (w₁.record e) := by
  refine h.trans ⟨[e], rfl, fun e' he' => ?_⟩
  rw [List.mem_singleton.1 he']
  exact he

/-- What is read off events of another kind stays the same. -/
theorem filterMap_eq {γ : Type} {f : Event → Option γ} (h : w.Tells p w')
    (hf : ∀ e, p e = true → f e = none) :
    w'.journal.filterMap f = w.journal.filterMap f := by
  obtain ⟨l, hl, hp⟩ := h
  have hnone : l.filterMap f = [] := List.filterMap_eq_nil_iff.2 fun e he => hf e (hp e he)
  rw [hl, List.filterMap_append, hnone, List.nil_append]

theorem since (h : w.Tells p w') : ∀ e ∈ w'.since w.journal.length, p e = true := by
  obtain ⟨l, hl, hp⟩ := h
  intro e he
  rw [since_of_journal hl, List.mem_reverse] at he
  exact hp e he

end Tells

end World

namespace Renewal

variable {σ τ : Type} {s : Setting σ τ} {r : Renewal} {w w' : World σ}
  {t : Turn Renewal (Except Failure Source)}

theorem tells_takeTurn {seen ticket : Nat} (h : r.takeTurn s seen ticket w = (t, w')) :
    w.Tells Event.ofRenewal w' := by
  simp only [takeTurn] at h
  split at h
  · cases h
    exact .of_eq rfl
  · split at h
    · cases h
      exact (World.Tells.refl _ w).record rfl
    · split at h
      · cases h
        exact .of_eq rfl
      · cases h
        exact (World.Tells.refl _ w).record rfl

theorem tells_complete {ticket : Nat} {outcome : Except Failure FreshUrl}
    (h : r.complete s ticket outcome w = (t, w')) : w.Tells Event.ofRenewal w' := by
  simp only [complete] at h
  split at h
  · cases h
    exact (World.Tells.refl _ w).record rfl
  · rename_i signed _
    cases h
    have hsame : w.Tells Event.ofRenewal ((w.count Counters.renewed).resolve fun x =>
      (x.renewed signed r.early).leave ticket) := .of_eq rfl
    refine hsame.record ?_
    rw [noticeOf]
    split <;> rfl

/-- A renewal tells of renewals only. -/
theorem tells_step (h : r.step s w = (t, w')) : w.Tells Event.ofRenewal w' := by
  unfold step at h
  split at h
  · cases h
    exact .of_eq rfl
  · split at h
    · exact tells_takeTurn h
    · cases h
      exact .refl _ w
  · split at h
    · exact tells_complete h
    · cases h
      exact .refl _ w

theorem journal_drop (r : Renewal) (w : World σ) : (r.drop w).journal = w.journal := by
  unfold drop
  split <;> rfl

theorem retries_takeTurn {seen ticket : Nat} (h : r.takeTurn s seen ticket w = (t, w')) :
    w'.counters.retries = w.counters.retries := by
  simp only [takeTurn] at h
  split at h
  · cases h
    rfl
  · split at h
    · cases h
      rfl
    · split at h <;> cases h <;> rfl

theorem retries_step (h : r.step s w = (t, w')) : w'.counters.retries = w.counters.retries := by
  unfold step at h
  split at h
  · cases h
    rfl
  · split at h
    · exact retries_takeTurn h
    · cases h
      rfl
  · split at h
    · simp only [complete] at h
      split at h <;> cases h <;> rfl
    · cases h
      rfl

theorem renewal_of_error {f : Failure} (h : r.step s w = (.done (.error f), w')) :
    ∃ reason, f = .renewal reason := by
  unfold step at h
  split at h
  · cases h
  · split at h
    · simp only [takeTurn] at h
      split at h
      · cases h
      · split at h
        · cases h
          exact ⟨_, rfl⟩
        · split at h <;> cases h
          exact ⟨_, rfl⟩
    · cases h
  · split at h
    · simp only [complete] at h
      split at h <;> cases h
      exact ⟨_, rfl⟩
    · cases h

end Renewal

end RemoteFile
