import RemoteFile.Operation
import RemoteFile.Proofs.Crowd.Trace

/-!
# The stages of an operation

An operation chooses a URL, renews one that is about to expire, makes an attempt, deals with its
failure, and then renews the URL that was rejected, or rests, before it chooses again.
`Operation.Stage` lists every turn of an operation with its reason and with the world that it
leaves.

Main statements:

* `Operation.stage` : a turn of an operation is one of those that `Operation.Stage` lists.
* `Budget.Decided` : what is decided after a failure, with its reason.
-/

namespace RemoteFile

namespace Budget

/-- What is decided after a failure, and the budget that is left. -/
inductive Decided (policy : RetryPolicy) (b : Budget) (c : RetryClass) :
    Decision → Budget → Prop
  /-- The failure is final. -/
  | fatal (hc : c = .fatal) : Decided policy b c .giveUp b
  /-- The budget is spent. -/
  | spent (hc : c ≠ .fatal) (hb : policy.maxAttempts ≤ b.attempts) : Decided policy b c .giveUp b
  /-- The URL was renewed before, and is rejected again. -/
  | again (hc : c = .renew) (hb : b.attempts < policy.maxAttempts) (hr : b.renewed = true) :
      Decided policy b c .giveUp b
  /-- The URL is to be renewed. -/
  | renew (hc : c = .renew) (hb : b.attempts < policy.maxAttempts) (hr : b.renewed = false) :
      Decided policy b c .renew ⟨b.attempts + 1, true⟩
  /-- The failure is transient. -/
  | backoff (hc : c = .retryable) (hb : b.attempts < policy.maxAttempts) :
      Decided policy b c (.backoff (Backoff.delay policy b.attempts))
        ⟨b.attempts + 1, b.renewed⟩

theorem decided (policy : RetryPolicy) (b : Budget) (c : RetryClass) :
    Decided policy b c (b.afterFailure policy c).1 (b.afterFailure policy c).2 := by
  by_cases hb : policy.maxAttempts ≤ b.attempts
  · -- a spent budget gives up, whatever the failure
    rw [afterFailure_of_isExhausted (by simpa [isExhausted] using hb)]
    by_cases hc : c = .fatal
    · exact .fatal hc
    · exact .spent hc hb
  · have hlt : b.attempts < policy.maxAttempts := Nat.lt_of_not_le hb
    have hmore : b.isExhausted policy = false := by simpa [isExhausted] using hlt
    cases c with
    | fatal => exact .fatal rfl
    | renew =>
      cases hr : b.renewed with
      | true =>
        have heq : b.afterFailure policy .renew = (.giveUp, b) := by simp [afterFailure, hr]
        rw [heq]
        exact .again rfl hlt hr
      | false =>
        have heq : b.afterFailure policy .renew = (.renew, ⟨b.attempts + 1, true⟩) := by
          simp [afterFailure, hmore, hr]
        rw [heq]
        exact .renew rfl hlt hr
    | retryable =>
      have heq : b.afterFailure policy .retryable =
          (.backoff (Backoff.delay policy b.attempts), ⟨b.attempts + 1, b.renewed⟩) := by
        simp [afterFailure, hmore]
      rw [heq]
      exact .backoff rfl hlt

theorem Decided.eq {policy : RetryPolicy} {b b' : Budget} {c : RetryClass} {d : Decision}
    (h : Decided policy b c d b') : b.afterFailure policy c = (d, b') := by
  cases h with
  | fatal hc => rw [hc]; rfl
  | spent hc hb => exact afterFailure_of_isExhausted (by simpa [isExhausted] using hb) c
  | again hc hb hr => simp [hc, afterFailure, hr]
  | renew hc hb hr =>
    have hmore : b.isExhausted policy = false := by simpa [isExhausted] using hb
    simp [hc, afterFailure, hmore, hr]
  | backoff hc hb =>
    have hmore : b.isExhausted policy = false := by simpa [isExhausted] using hb
    simp [hc, afterFailure, hmore]

end Budget

namespace Operation

variable {σ τ α β : Type}

/-- The world after an attempt was begun. -/
def begun (source : Source) (w : World σ) : World σ :=
  w.record (.attempt source.url source.generation)

/-- The world after it was decided to make another attempt after this delay. -/
def rested (s : Setting σ τ) (number : Nat) (delay : Duration) (f : Failure) (w : World σ) :
    World σ :=
  let told := (w.note (.retrying number (spreadDelay s delay w) f)).count Counters.retried
  { told with draws := w.draws + 1 }.record (.sleep (spreadDelay s delay w))

/-- What a turn of an operation comes to, stage by stage. -/
inductive Stage (s : Setting σ τ) (work : Attempts (World σ) α β) (b : Budget) (w : World σ) :
    Phase α → Turn (Operation α) (Except Failure β) → World σ → Prop
  /-- An attempt begins with the current URL, which may have expired. -/
  | begins {w₁ : World σ} (hw : w₁ = w ∨ w₁ = w.note (.usingExpired w.resolver.current.generation)) :
      Stage s work b w .choosing
        (.moved ⟨b, .attempting w.resolver.current (work.start b.attempts w.resolver.current)⟩)
        (begun w.resolver.current w₁)
  /-- The current URL is about to expire, and did not come from such a renewal itself. -/
  | nears (hearly : w.resolver.isEarly w.resolver.current = false) :
      Stage s work b w .choosing
        (.moved ⟨b, .refreshing (Renewal.start w.resolver.current true)⟩)
        (w.note (.aboutToExpire w.resolver.current.generation))
  /-- The renewal ahead of expiry goes on. -/
  | refreshes {r r' : Renewal} {rt : Turn Renewal (Except Failure Source)}
      {t : Turn (Operation α) (Except Failure β)} {w' : World σ} (h : r.step s w = (rt, w'))
      (hr : rt.next? = some r') (ht : t.next? = some ⟨b, .refreshing r'⟩) :
      Stage s work b w (.refreshing r) t w'
  /-- The renewal ahead of expiry has a URL, with which an attempt begins. -/
  | refreshed {r : Renewal} {source : Source} {w₁ : World σ}
      (h : r.step s w = (.done (.ok source), w₁)) :
      Stage s work b w (.refreshing r)
        (.moved ⟨b, .attempting source (work.start b.attempts source)⟩) (begun source w₁)
  /-- The renewal ahead of expiry fails. -/
  | stale {r : Renewal} {f : Failure} {w' : World σ} (h : r.step s w = (.done (.error f), w')) :
      Stage s work b w (.refreshing r) (.done (.error f)) w'
  /-- The attempt goes on. -/
  | works {used : Source} {a a' : α} {ta : Turn α (Except Failure β)}
      {t : Turn (Operation α) (Except Failure β)} {w' : World σ} (h : work.step a w = (ta, w'))
      (ha : ta.next? = some a') (ht : t.next? = some ⟨b, .attempting used a'⟩) :
      Stage s work b w (.attempting used a) t w'
  /-- The attempt succeeds. -/
  | succeeds {used : Source} {a : α} {v : β} {w' : World σ}
      (h : work.step a w = (.done (.ok v), w')) :
      Stage s work b w (.attempting used a) (.done (.ok v)) w'
  /-- The attempt fails for good. -/
  | breaks {used : Source} {a : α} {f : Failure} {w₁ : World σ}
      (h : work.step a w = (.done (.error f), w₁))
      (hd : f.retryClass = .fatal ∨ f.retryClass = .renew ∧ b.attempts < s.options.retry.maxAttempts ∧
        b.renewed = true) :
      Stage s work b w (.attempting used a) (.done (.error f)) w₁
  /-- The last attempt fails. -/
  | exhausts {used : Source} {a : α} {f : Failure} {w₁ : World σ}
      (h : work.step a w = (.done (.error f), w₁)) (hf : f.retryClass ≠ .fatal)
      (hb : s.options.retry.maxAttempts ≤ b.attempts) :
      Stage s work b w (.attempting used a) (.done (.error (.exhausted b.attempts f)))
        (w₁.note (.budgetExhausted b.attempts f))
  /-- The URL of the attempt was rejected, and is to be renewed. -/
  | rejects {used : Source} {a : α} {f : Failure} {w₁ : World σ}
      (h : work.step a w = (.done (.error f), w₁)) (hf : f.retryClass = .renew)
      (hb : b.attempts < s.options.retry.maxAttempts) (hr : b.renewed = false) :
      Stage s work b w (.attempting used a)
        (.moved ⟨⟨b.attempts + 1, true⟩, .renewing (Renewal.start used false)⟩)
        ((w₁.note (.rejected (b.attempts + 1) f)).count Counters.retried)
  /-- The attempt fails and is to be made again. -/
  | backsOff {used : Source} {a : α} {f : Failure} {w₁ : World σ} {phase : Phase α}
      (h : work.step a w = (.done (.error f), w₁)) (hf : f.retryClass = .retryable)
      (hb : b.attempts < s.options.retry.maxAttempts)
      (hphase : phase = .choosing ∨ ∃ due, phase = .resting due) :
      Stage s work b w (.attempting used a) (.moved ⟨⟨b.attempts + 1, b.renewed⟩, phase⟩)
        (rested s (b.attempts + 1) (Backoff.delay s.options.retry b.attempts) f w₁)
  /-- The renewal of a rejected URL goes on. -/
  | renews {r r' : Renewal} {rt : Turn Renewal (Except Failure Source)}
      {t : Turn (Operation α) (Except Failure β)} {w' : World σ} (h : r.step s w = (rt, w'))
      (hr : rt.next? = some r') (ht : t.next? = some ⟨b, .renewing r'⟩) :
      Stage s work b w (.renewing r) t w'
  /-- The rejected URL is renewed. -/
  | renewed {r : Renewal} {source : Source} {w' : World σ}
      (h : r.step s w = (.done (.ok source), w')) :
      Stage s work b w (.renewing r) (.moved ⟨b, .choosing⟩) w'
  /-- The renewal of a rejected URL fails. -/
  | unrenewed {r : Renewal} {f : Failure} {w' : World σ}
      (h : r.step s w = (.done (.error f), w')) :
      Stage s work b w (.renewing r) (.done (.error f)) w'
  /-- The delay is not over yet. -/
  | rests {due : Nat} (h : w.now < due) :
      Stage s work b w (.resting due) (.waits ⟨b, .resting due⟩ (some due)) w
  /-- The delay is over. -/
  | wakes {due : Nat} (h : due ≤ w.now) :
      Stage s work b w (.resting due) (.moved ⟨b, .choosing⟩) w

variable {s : Setting σ τ} {work : Attempts (World σ) α β} {b : Budget} {w w₁ w' : World σ}
  {phase : Phase α} {t : Turn (Operation α) (Except Failure β)}

theorem stage_choose (h : choose s work ⟨b, .choosing⟩ w = (t, w')) :
    Stage s work b w .choosing t w' := by
  simp only [choose] at h
  split at h
  · cases h
    exact .begins (.inl rfl)
  · split at h
    · split at h <;> cases h
      · exact .begins (.inr rfl)
      · exact .begins (.inl rfl)
    · rename_i hearly
      cases h
      exact .nears (by simpa using hearly)

theorem stage_recover {used : Source} {a : α} {f : Failure}
    (ha : work.step a w = (.done (.error f), w₁))
    (h : recover s ⟨b, .attempting used a⟩ f used w₁ = (t, w')) :
    Stage s work b w (.attempting used a) t w' := by
  have hd := b.decided s.options.retry f.retryClass
  simp only [recover] at h
  generalize b.afterFailure s.options.retry f.retryClass = d at h hd
  obtain ⟨decision, b'⟩ := d
  cases hd with
  | fatal hf =>
    simp only [hf, bne_self_eq_false, Bool.false_and, Bool.false_eq_true, if_false] at h
    cases h
    exact .breaks ha (.inl hf)
  | spent hf hb =>
    have hspent : (f.retryClass != .fatal && b'.isExhausted s.options.retry) = true := by
      simpa [Budget.isExhausted] using ⟨hf, hb⟩
    simp only [hspent, if_true] at h
    cases h
    exact .exhausts ha hf hb
  | again hf hb hr =>
    have hmore : b'.isExhausted s.options.retry = false := by simpa [Budget.isExhausted] using hb
    simp only [hmore, Bool.and_false, Bool.false_eq_true, if_false] at h
    cases h
    exact .breaks ha (.inr ⟨hf, hb, hr⟩)
  | renew hf hb hr =>
    cases h
    exact .rejects ha hf hb hr
  | backoff hf hb =>
    cases h
    refine .backsOff ha hf hb ?_
    cases s.rests with
    | true => exact .inr ⟨_, rfl⟩
    | false => exact .inl rfl

/-- **What a turn of an operation comes to, stage by stage.** -/
theorem stage (h : step s work ⟨b, phase⟩ w = (t, w')) : Stage s work b w phase t w' := by
  unfold step at h
  cases phase with
  | choosing => exact stage_choose h
  | refreshing r =>
    rcases hstep : r.step s w with ⟨rt, w₁⟩
    simp only [hstep] at h
    split at h <;> rename_i heq <;> cases heq <;> cases h
    · exact .refreshes hstep rfl rfl
    · exact .refreshes hstep rfl rfl
    · exact .refreshed hstep
    · exact .stale hstep
  | attempting used a =>
    rcases hstep : work.step a w with ⟨ta, w₁⟩
    simp only [hstep] at h
    split at h <;> rename_i heq <;> cases heq
    · cases h
      exact .works hstep rfl rfl
    · cases h
      exact .works hstep rfl rfl
    · cases h
      exact .succeeds hstep
    · exact stage_recover hstep h
  | renewing r =>
    rcases hstep : r.step s w with ⟨rt, w₁⟩
    simp only [hstep] at h
    split at h <;> rename_i heq <;> cases heq <;> cases h
    · exact .renews hstep rfl rfl
    · exact .renews hstep rfl rfl
    · exact .renewed hstep
    · exact .unrenewed hstep
  | resting due =>
    dsimp only at h
    split at h <;> cases h
    · rename_i hdue
      exact .wakes hdue
    · rename_i hdue
      exact .rests (Nat.lt_of_not_le hdue)

end Operation

end RemoteFile
