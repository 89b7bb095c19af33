import RemoteFile.Proofs.Operation.Stage
import RemoteFile.Proofs.Operation.Turn
import RemoteFile.Proofs.World.Journal

/-!
# What is done besides attempts

Whatever a task does besides its attempts, it neither calls the transport nor touches a connection,
and the journal does not tell of any: it only arranges for the next attempt. So one step of an
operation is a turn of the attempt that is under way, or something is arranged, or both.

Main statements:

* `Renewal.arranges_step` : a renewal arranges for the next attempt.
* `Operation.acts` : a turn of an operation is one of its attempt, or something is arranged.
-/

namespace RemoteFile

/-- Does the event tell of what is done besides attempts? -/
def Event.ofArranging : Event → Bool
  | .notice (.readCancelled _ _) | .notice (.fileOpened _ _) => true
  | e => e.ofRetrying

theorem Event.ofArranging_of_ofRetrying {e : Event} (h : e.ofRetrying = true) :
    e.ofArranging = true := by
  unfold ofArranging
  split
  all_goals first | rfl | exact h

/-- Something is done that needs no connection: the transport, the pool and what is counted of them
are the same in both worlds, and the journal tells of nothing else. -/
structure World.Arranges {σ : Type} (w w' : World σ) : Prop where
  /-- The transport and the pool. -/
  beside : w.Beside w'
  /-- The journal. -/
  tells : w.Tells Event.ofArranging w'

namespace World.Arranges

variable {σ : Type} {w w₁ w' : World σ}

theorem refl (w : World σ) : w.Arranges w := ⟨.refl w, .refl _ w⟩

theorem trans (h : w.Arranges w₁) (h' : w₁.Arranges w') : w.Arranges w' :=
  ⟨h.beside.trans h'.beside, h.tells.trans h'.tells⟩

theorem record (h : w.Arranges w₁) {e : Event} (he : e.ofArranging = true) :
    w.Arranges (w₁.record e) :=
  ⟨h.beside.record e, h.tells.record he⟩

theorem count (h : w.Arranges w₁) {f : Counters → Counters}
    (hf : ∀ c : Counters, (f c).ofConns = c.ofConns) : w.Arranges (w₁.count f) :=
  ⟨h.beside.count hf, h.tells.trans (.of_eq rfl)⟩

end World.Arranges

namespace Renewal

variable {σ τ : Type} {s : Setting σ τ} {r : Renewal} {w w' : World σ}
  {t : Turn Renewal (Except Failure Source)}

/-- A renewal arranges for the next attempt. -/
theorem arranges_step (h : r.step s w = (t, w')) : w.Arranges w' :=
  ⟨beside_step h, (tells_step h).mono fun _ he =>
    Event.ofArranging_of_ofRetrying (Event.ofRetrying_of_ofRenewal he)⟩

theorem arranges_drop (r : Renewal) (w : World σ) : w.Arranges (r.drop w) :=
  ⟨beside_drop r w, .of_eq (journal_drop r w)⟩

end Renewal

namespace Operation

variable {σ τ α β : Type}

/-- What one step of an operation does to the world and to its attempt. -/
inductive Acts (work : Attempts (World σ) α β) (w : World σ) :
    Option α → World σ → Option α → Prop
  /-- There is no attempt. -/
  | aside {w' : World σ} (hw : w.Arranges w') : Acts work w none w' none
  /-- An attempt begins. -/
  | begins {w' : World σ} (number : Nat) (source : Source) (hw : w.Arranges w') :
      Acts work w none w' (some (work.start number source))
  /-- The attempt takes a turn and goes on. -/
  | goesOn {a a' : α} {ta : Turn α (Except Failure β)} {w' : World σ}
      (h : work.step a w = (ta, w')) (ha : ta.next? = some a') : Acts work w (some a) w' (some a')
  /-- The attempt takes a turn and ends. -/
  | ends {a : α} {b : Except Failure β} {w₁ w' : World σ} (h : work.step a w = (.done b, w₁))
      (hw : w₁.Arranges w') : Acts work w (some a) w' none
  /-- The attempt is dropped. -/
  | dropped {a : α} {w' : World σ} (hw : (work.drop a w).Arranges w') :
      Acts work w (some a) w' none

variable {s : Setting σ τ} {work : Attempts (World σ) α β} {o : Operation α} {w w₁ w' : World σ}
  {t : Turn (Operation α) (Except Failure β)}

theorem Acts.arranges {a : Option α} (h : Acts work w a w₁ none) (hw : w₁.Arranges w') :
    Acts work w a w' none := by
  cases h with
  | aside hw₁ => exact .aside (hw₁.trans hw)
  | ends h hw₁ => exact .ends h (hw₁.trans hw)
  | dropped hw₁ => exact .dropped (hw₁.trans hw)

/-- **A turn of an operation is one of its attempt, or something is arranged.** -/
theorem acts (h : o.step s work w = (t, w')) :
    Acts work w o.attempt? w' (t.next?.bind attempt?) := by
  obtain ⟨b, phase⟩ := o
  cases stage h with
  | begins hw =>
    refine .begins _ _ ?_
    rcases hw with hw | hw <;> subst hw
    · exact (World.Arranges.refl _).record rfl
    · exact ((World.Arranges.refl _).record rfl).record rfl
  | nears hearly => exact .aside ((World.Arranges.refl w).record rfl)
  | refreshes hstep hr ht | renews hstep hr ht =>
    rw [ht]
    exact .aside (Renewal.arranges_step hstep)
  | refreshed hstep => exact .begins _ _ ((Renewal.arranges_step hstep).record rfl)
  | stale hstep => exact .aside (Renewal.arranges_step hstep)
  | works hstep ha ht =>
    rw [ht]
    exact .goesOn hstep ha
  | succeeds hstep | breaks hstep hd => exact .ends hstep (.refl w')
  | exhausts hstep hf hb => exact .ends hstep ((World.Arranges.refl _).record rfl)
  | rejects hstep hf hb hr =>
    exact .ends hstep (((World.Arranges.refl _).record rfl).count (f := Counters.retried)
      fun _ => rfl)
  | @backsOff used a f w₁ _ hstep hf hb hphase =>
    have hrested : w₁.Arranges (rested s (b.attempts + 1)
        (Backoff.delay s.options.retry b.attempts) f w₁) :=
      ⟨⟨rfl, rfl, rfl, rfl, rfl, rfl⟩, [_, _], rfl, by simp [Event.ofArranging, Event.ofRetrying]⟩
    rcases hphase with rfl | ⟨due, rfl⟩
    · exact .ends hstep hrested
    · exact .ends hstep hrested
  | renewed hstep | unrenewed hstep => exact .aside (Renewal.arranges_step hstep)
  | rests hdue | wakes hdue => exact .aside (.refl w)

theorem acts_drop (work : Attempts (World σ) α β) (o : Operation α) (w : World σ) :
    Acts work w o.attempt? (o.drop work w) none := by
  obtain ⟨b, phase⟩ := o
  cases phase with
  | choosing | resting due => exact .aside (.refl w)
  | refreshing r | renewing r => exact .aside (Renewal.arranges_drop r w)
  | attempting used a => exact .dropped (.refl _)

end Operation

end RemoteFile
