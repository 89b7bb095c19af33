import RemoteFile.Proofs.Operation.Ending
import RemoteFile.Proofs.Transport.Script

/-!
# The contract of an operation

What anyone who runs an operation can rely on, whatever its attempts come to, whatever the renewer
answers, and whatever others do to the URL meanwhile: how many attempts there are, how it ends and
with what, how often the URL is renewed on its behalf, which delays it waits out, and how many
retries are counted.

Main statements:

* `Operation.slept_eq` : one delay for each transient failure of an attempt that is not the last.
* `Operation.retried_eq` : as many retries as decisions to try again.
* `Operation.course_keeps_contract` : all of this, and that an operation ends.
* `PoolRead.course_of_reachable` : every read through a pool is such an operation.
-/

namespace RemoteFile

namespace Operation

variable {σ τ α β : Type} {s : Setting σ τ} {work : Attempts (World σ) α β}
  {o o' : Operation α} {w w' : World σ} {t : Turn (Operation α) (Except Failure β)}
  {ms : List (Moment σ α)}

/-! ### Delays and retries -/

/-- A delay is waited out after a transient failure of an attempt that is not the last one, and only
then. -/
theorem Moment.rest?_of_error {m : Moment σ α} {f : Failure}
    (h : m.outcome? work = some (.error f)) :
    m.rest? s work =
      if f.retryClass = .retryable ∧ m.operation.budget.attempts < s.options.retry.maxAttempts then
        some (spreadDelay s (Backoff.delay s.options.retry m.operation.budget.attempts)
          (m.found work))
      else none := by
  have hd := m.operation.budget.decided s.options.retry f.retryClass
  have hdecision := decision?_of_error h hd
  rw [rest?, hdecision]
  generalize m.operation.budget.afterFailure s.options.retry f.retryClass = d at hd
  obtain ⟨decision, b⟩ := d
  cases hd with
  | fatal hc | again hc | renew hc =>
    rw [if_neg]
    rintro ⟨hretry, -⟩
    rw [hc] at hretry
    cases hretry
  | spent hc hb => rw [if_neg fun h => Nat.not_lt_of_ge hb h.2]
  | backoff hc hb => rw [if_pos ⟨hc, hb⟩]

theorem Moment.rest?_of_outcome? {m : Moment σ α} (h : ∀ f, m.outcome? work ≠ some (.error f)) :
    m.rest? s work = none := by
  rw [rest?, decision?_of_outcome? h]

/-- **One delay for each transient failure of an attempt that is not the last one allowed.** -/
theorem slept_eq (h : Course s work ms t) :
    slept s work ms = (relapses s work ms).map fun x =>
      spreadDelay s (Backoff.delay s.options.retry x.1) x.2 := by
  induction h with
  | nil => rfl
  | @snoc ms t o h ht w ih =>
    have hnumber := (h.underway ht).attempts
    have hcons : slept s work (⟨o, w⟩ :: ms) =
        (Event.delays ((⟨o, w⟩ : Moment σ α).told s work)).reverse ++ slept s work ms := rfl
    rw [hcons, (Moment.kept _).delays, ih, relapses]
    cases hout : (⟨o, w⟩ : Moment σ α).outcome? work with
    | none =>
      rw [Moment.rest?_of_outcome? (by simp [hout])]
      rfl
    | some b =>
      cases b with
      | ok v =>
        rw [Moment.rest?_of_outcome? (by simp [hout])]
        rfl
      | error f =>
        rw [Moment.rest?_of_error hout, hnumber]
        dsimp only
        by_cases hf : f.retryClass = .retryable ∧
          (outcomes work ms).length + 1 < s.options.retry.maxAttempts
        · rw [if_pos hf, if_pos hf]
          rfl
        · rw [if_neg hf, if_neg hf]
          rfl

theorem spreadDelay_of_jitter (h : s.options.retry.jitter ≤ 0.0) (d : Duration) (w : World σ) :
    spreadDelay s d w = d := by
  simp [spreadDelay, Backoff.spread, h]

theorem slept_of_jitter (h : Course s work ms t) (hj : s.options.retry.jitter ≤ 0.0) :
    slept s work ms = (relapses s work ms).map fun x => Backoff.delay s.options.retry x.1 := by
  rw [slept_eq h]
  simp only [spreadDelay_of_jitter hj]

/-- **As many retries are counted as it was decided to try again.** -/
theorem retried_eq (s : Setting σ τ) (work : Attempts (World σ) α β) (ms : List (Moment σ α)) :
    retried s work ms = (decisions s work ms).countP Decision.isRetry := by
  induction ms with
  | nil => rfl
  | cons m ms ih =>
    have hdecisions : (decisions s work (m :: ms)).countP Decision.isRetry =
        m.retries s work + (decisions s work ms).countP Decision.isRetry := by
      rw [decisions, List.filterMap_cons, Moment.retries]
      cases m.decision? s work with
      | none => exact (Nat.zero_add _).symm
      | some d =>
        dsimp only
        rw [List.countP_cons, Nat.add_comm]
        rfl
    rw [retried, (Moment.kept m).retries, ih, hdecisions]
    push_cast
    omega

/-! ### How an operation ends -/

/-- How an operation fails that has taken these turns. -/
inductive Fails (s : Setting σ τ) (work : Attempts (World σ) α β) :
    List (Moment σ α) → Failure → Prop
  /-- The last attempt has failed for good. -/
  | fatal {ms : List (Moment σ α)} {e : Failure} {earlier : List (Except Failure β)}
      (h : outcomes work ms = .error e :: earlier)
      (hlast : begunIn s work ms = (outcomes work ms).length) (he : e.retryClass = .fatal) :
      Fails s work ms e
  /-- All attempts that are allowed have been made, and the last one has failed. -/
  | exhausted {ms : List (Moment σ α)} {last : Failure} {earlier : List (Except Failure β)}
      (h : outcomes work ms = .error last :: earlier)
      (hlast : begunIn s work ms = (outcomes work ms).length) (he : last.retryClass ≠ .fatal)
      (hall : begunIn s work ms = max 1 s.options.retry.maxAttempts) :
      Fails s work ms (.exhausted (begunIn s work ms) last)
  /-- The URL was rejected in the last attempt, and had been renewed before that attempt. -/
  | rejected {ms : List (Moment σ α)} {e : Failure} {earlier : List (Except Failure β)}
      (h : outcomes work ms = .error e :: earlier)
      (hlast : begunIn s work ms = (outcomes work ms).length) (he : e.retryClass = .renew)
      (hrenewed : RenewedFor s work ms) : Fails s work ms e
  /-- A renewal has failed, of a rejected URL or ahead of expiry. -/
  | unrenewed {ms : List (Moment σ α)} {m : Moment σ α} {r : Renewal} {reason : String}
      (hr : m.operation.renewal? = some r)
      (h : (r.step s m.world).1 = .done (.error (.renewal reason))) :
      Fails s work (m :: ms) (.renewal reason)

/-- What can be relied on in the course of an operation. -/
structure Contract (s : Setting σ τ) (work : Attempts (World σ) α β) (ms : List (Moment σ α))
    (t : Turn (Operation α) (Except Failure β)) : Prop where
  /-- There are not too many attempts. -/
  attempts : begunIn s work ms ≤ max 1 s.options.retry.maxAttempts
  /-- The operation succeeds if and only if an attempt does, and with the same. -/
  succeeds : ∀ v, t = .done (.ok v) ↔ .ok v ∈ outcomes work ms
  /-- That is its last attempt. -/
  last : ∀ v, .ok v ∈ outcomes work ms →
    (∃ earlier, outcomes work ms = .ok v :: earlier) ∧
      begunIn s work ms = (outcomes work ms).length
  /-- At most one rejected URL is renewed. -/
  renewals : rejectedIn s work ms ≤ 1
  /-- There is a delay for each transient failure of an attempt that is not the last one allowed,
  and no other. -/
  delays : slept s work ms = (relapses s work ms).map fun x =>
    spreadDelay s (Backoff.delay s.options.retry x.1) x.2
  /-- Without jitter, it is the one that the policy says. -/
  nominal : s.options.retry.jitter ≤ 0.0 →
    slept s work ms = (relapses s work ms).map fun x => Backoff.delay s.options.retry x.1
  /-- As many retries are counted as it was decided to try again. -/
  retries : retried s work ms = (decisions s work ms).countP Decision.isRetry
  /-- How it fails. -/
  fails : ∀ e, t = .done (.error e) → Fails s work ms e
  /-- It does not fail with a failure that is transient. -/
  final : ∀ e, t = .done (.error e) → e.retryClass ≠ .retryable

theorem Underway.begunIn_le (hu : Underway s work ms o) :
    begunIn s work ms ≤ max 1 s.options.retry.maxAttempts := by
  have hattempts := hu.attempts
  have hbound := hu.bound
  have hbegun := hu.begun
  split at hbegun <;> omega

theorem Underway.rejectedIn_le (hu : Underway s work ms o) : rejectedIn s work ms ≤ 1 := by
  have hrejected := hu.rejected
  split at hrejected <;> omega

theorem Underway.contract (hu : Underway s work ms o) (h : Course s work ms t)
    (ht : t.next? = some o) : Contract s work ms t where
  attempts := hu.begunIn_le
  succeeds v := by
    refine ⟨fun hv => ?_, fun hv => absurd hv (hu.errors v)⟩
    rw [hv] at ht
    cases ht
  last v hv := absurd hv (hu.errors v)
  renewals := hu.rejectedIn_le
  delays := slept_eq h
  nominal := slept_of_jitter h
  retries := retried_eq s work ms
  fails e he := by
    rw [he] at ht
    cases ht
  final e he := by
    rw [he] at ht
    cases ht

section

variable {b : Except Failure β}

theorem begunIn_of_done (hturn : step s work o w = (.done b, w')) :
    begunIn s work (⟨o, w⟩ :: ms) = begunIn s work ms := by
  have ht : (⟨o, w⟩ : Moment σ α).turn s work = (.done b, w') := hturn
  rw [begunIn_cons, Moment.begins, ht]
  simp

theorem rejectedIn_of_done (hturn : step s work o w = (.done b, w')) :
    rejectedIn s work (⟨o, w⟩ :: ms) = rejectedIn s work ms := by
  have ht : (⟨o, w⟩ : Moment σ α).turn s work = (.done b, w') := hturn
  rw [rejectedIn_cons, Moment.rejects, ht]
  simp

theorem Underway.contract_of_renewal {r : Renewal} {f : Failure} (hu : Underway s work ms o)
    (h : Course s work (⟨o, w⟩ :: ms) (.done (.error f)))
    (hturn : step s work o w = (.done (.error f), w')) (ho : o.attempt? = none)
    (hr : o.renewal? = some r) (hstep : r.step s w = (.done (.error f), w')) :
    Contract s work (⟨o, w⟩ :: ms) (.done (.error f)) := by
  obtain ⟨reason, rfl⟩ := Renewal.renewal_of_error hstep
  have houts : outcomes work (⟨o, w⟩ :: ms) = outcomes work ms := by
    rw [outcomes_cons, (Moment.outcome?_of_none ho).1]
    rfl
  have herrors : ∀ v, .ok v ∉ outcomes work (⟨o, w⟩ :: ms) := by
    rw [houts]
    exact hu.errors
  refine ⟨?_, ?_, ?_, ?_, slept_eq h, slept_of_jitter h,
    retried_eq s work _, ?_, ?_⟩
  · rw [begunIn_of_done hturn]
    exact hu.begunIn_le
  · exact fun v => ⟨fun hv => (nomatch hv), fun hv => absurd hv (herrors v)⟩
  · exact fun v hv => absurd hv (herrors v)
  · rw [rejectedIn_of_done hturn]
    exact hu.rejectedIn_le
  · intro e he
    cases he
    exact .unrenewed hr (congrArg Prod.fst hstep)
  · intro e he
    cases he
    exact nofun

theorem Underway.contract_of_attempt {out : Except Failure β} (hu : Underway s work ms o)
    (h : Course s work (⟨o, w⟩ :: ms) (.done b)) (hturn : step s work o w = (.done b, w'))
    (ho : o.attempt?.isSome = true) (hout : (⟨o, w⟩ : Moment σ α).outcome? work = some out)
    (hok : ∀ v, b = .ok v ↔ out = .ok v)
    (hfails : ∀ e, b = .error e → outcomes work (⟨o, w⟩ :: ms) = out :: outcomes work ms →
      begunIn s work (⟨o, w⟩ :: ms) = (outcomes work (⟨o, w⟩ :: ms)).length →
        Fails s work (⟨o, w⟩ :: ms) e ∧ e.retryClass ≠ .retryable) :
    Contract s work (⟨o, w⟩ :: ms) (.done b) := by
  have houts : outcomes work (⟨o, w⟩ :: ms) = out :: outcomes work ms := by
    rw [outcomes_cons, hout]
    rfl
  have hbegun : begunIn s work (⟨o, w⟩ :: ms) = (outcomes work (⟨o, w⟩ :: ms)).length := by
    rw [begunIn_of_done hturn, hu.begun, ho, houts]
    rfl
  refine ⟨?_, ?_, ?_, ?_, slept_eq h, slept_of_jitter h,
    retried_eq s work _, ?_, ?_⟩
  · rw [begunIn_of_done hturn]
    exact hu.begunIn_le
  · intro v
    rw [houts, List.mem_cons, Turn.done.injEq, hok]
    exact ⟨fun hv => .inl hv.symm, fun hv => hv.elim Eq.symm fun hv => absurd hv (hu.errors v)⟩
  · intro v hv
    rw [houts] at hv
    rcases List.mem_cons.1 hv with rfl | hv
    · exact ⟨⟨_, houts⟩, hbegun⟩
    · exact absurd hv (hu.errors v)
  · rw [rejectedIn_of_done hturn]
    exact hu.rejectedIn_le
  · intro e he
    cases he
    exact (hfails e rfl houts hbegun).1
  · intro e he
    cases he
    exact (hfails e rfl houts hbegun).2

end

/-- **The course of an operation keeps to its contract.** -/
theorem Course.contract (h : Course s work ms t) : Contract s work ms t := by
  cases h with
  | nil => exact underway_fresh.contract .nil rfl
  | @snoc ms t o hc ht w =>
    have hu := hc.underway ht
    have hall := hc.snoc ht w
    rcases hturn : o.step s work w with ⟨t', w'⟩
    rw [hturn] at hall
    cases hnext : t'.next? with
    | some o' => exact (hu.turn hturn hnext).contract hall hnext
    | none =>
      obtain ⟨out, rfl⟩ := Turn.eq_done_of_next? hnext
      obtain ⟨b, phase⟩ := o
      cases stage hturn with
      | stale hstep | unrenewed hstep => exact hu.contract_of_renewal hall hturn rfl rfl hstep
      | succeeds hstep =>
        exact hu.contract_of_attempt hall hturn rfl (Moment.outcome?_of_attempt hstep).1
          (fun v => Iff.rfl) nofun
      | breaks hstep hd =>
        refine hu.contract_of_attempt hall hturn rfl (Moment.outcome?_of_attempt hstep).1
          (fun v => Iff.rfl) fun e he houts hlast => ?_
        cases he
        rcases hd with hf | ⟨hf, -, hr⟩
        · exact ⟨.fatal houts hlast hf, by rw [hf]; decide⟩
        · refine ⟨.rejected houts hlast hf ?_, by rw [hf]; decide⟩
          rcases hu.renewed hr with hr | ⟨later, m, earlier, rfl, hm, hbegun⟩
          · cases hr
          · refine ⟨⟨_, _⟩ :: later, m, earlier, rfl, hm, ?_⟩
            rw [begunIn_of_done hturn]
            exact hbegun rfl
      | @exhausts used a f w₁ hstep hf hb =>
        refine hu.contract_of_attempt hall hturn rfl (Moment.outcome?_of_attempt hstep).1
          (fun v => ?_) fun e he houts hlast => ?_
        · exact ⟨nofun, nofun⟩
        · cases he
          -- the number in the budget is that of the attempts that have been made
          have hcount : begunIn s work (⟨⟨b, .attempting used a⟩, w⟩ :: ms) = b.attempts := by
            rw [hlast, houts, hu.attempts]
            rfl
          have hbound := hu.bound
          have hall' : b.attempts = max 1 s.options.retry.maxAttempts :=
            Nat.le_antisymm hbound (Nat.max_le.2 ⟨hu.attempts ▸ Nat.succ_pos _, hb⟩)
          refine ⟨?_, nofun⟩
          rw [← hcount] at hall' ⊢
          exact .exhausted houts hlast hf hall'
      | refreshes hstep hr hnext | works hstep ha hnext | renews hstep hr hnext => cases hnext

/-- **The contract of an operation.**  In whatever worlds it takes its turns, whatever its attempts
come to and whatever the renewer answers: it keeps to its contract at every turn and in the end; and
it ends, unless one of its attempts, one renewal or one rest goes on forever. -/
theorem course_keeps_contract (s : Setting σ τ) (work : Attempts (World σ) α β) :
    (∀ ms t, Course s work ms t → Contract s work ms t) ∧
      ∀ (os : Nat → Operation α) (ws : Nat → World σ),
        (∀ i, ((os i).step s work (ws i)).1.next? = some (os (i + 1))) →
        ∃ n, (∀ i, n ≤ i → Works work (os i) (ws i) (os (i + 1))) ∨
          (∀ i, n ≤ i → Renews s (os i) (ws i) (os (i + 1))) ∨
          ∃ due, ∀ i, n ≤ i → Rests due (os i) (ws i) (os (i + 1)) := by
  constructor
  · intro ms t h
    exact h.contract
  · intro os ws h
    exact endless h

/-- The turns of an operation that nobody interferes with, so many of them, with what the latest one
has come to and the world that it has left. -/
def alone (s : Setting σ τ) (work : Attempts (World σ) α β) (w : World σ) :
    Nat → List (Moment σ α) × Outcome σ α β
  | 0 => ([], .moved fresh, w)
  | n + 1 =>
    let before := alone s work w n
    match before.2.1.next? with
    | some o => (⟨o, before.2.2⟩ :: before.1, o.step s work before.2.2)
    | none => before

theorem course_alone (s : Setting σ τ) (work : Attempts (World σ) α β) (w : World σ) (n : Nat) :
    Course s work (alone s work w n).1 (alone s work w n).2.1 := by
  induction n with
  | zero => exact .nil
  | succ n ih =>
    rw [alone]
    split
    · rename_i o ho
      exact ih.snoc ho _
    · exact ih

/-- Three attempts are allowed, and the renewer has a URL at once. -/
def threeAttempts : Setting Script.State Script.Ticket :=
  Script.renewing 4 ⟨1, 0, .ofSeconds 10, none⟩ 3 fun _ =>
    ⟨some 0, .ok ⟨"https://example.com/a.bin?sig=1", none⟩⟩

/-- The connection breaks, the URL is rejected, and then all is well. -/
def twoFailures : Attempts (World Script.State) Nat Unit :=
  .given [.error (.network "reset"), .error (.status 403 "https://example.com/a.bin")] ()

/-- The third attempt succeeds, after a delay and a renewal. -/
theorem course_keeps_contract_of_three :
    ∃ ms, Course threeAttempts twoFailures ms (.done (.ok ())) ∧
      begunIn threeAttempts twoFailures ms = 3 ∧
      outcomes twoFailures ms = [.ok (), .error (.status 403 "https://example.com/a.bin"),
        .error (.network "reset")] ∧
      rejectedIn threeAttempts twoFailures ms = 1 ∧
      (slept threeAttempts twoFailures ms).length = 1 ∧
      retried threeAttempts twoFailures ms = 2 ∧
      Contract threeAttempts twoFailures ms (.done (.ok ())) := by
  have hcourse := course_alone threeAttempts twoFailures (Script.world []) 9
  have hdone : (alone threeAttempts twoFailures (Script.world []) 9).2.1 = .done (.ok ()) := rfl
  rw [hdone] at hcourse
  have hcontract := (course_keeps_contract threeAttempts twoFailures).1 _ _ hcourse
  exact ⟨_, hcourse, rfl, rfl, rfl, rfl, rfl, hcontract⟩

end Operation

namespace PoolRead

variable {σ τ : Type} {s : Setting σ τ} {shift : σ → σ → Prop} {w₀ : World σ}
  {c : Crowd (World σ) Wanted (PoolRead τ) (Except Failure (List UInt8))}

/-- A read follows the course of an operation. -/
def Follows (s : Setting σ τ) (k : Wanted) (p : PoolRead τ) : Prop :=
  p.offset = k.offset ∧ p.len = k.len ∧
    ∃ ms t, Operation.Course s (Fetch.attempts s k.offset k.len) ms t ∧ t.next? = some p.operation

/-- **Reads through a pool keep to the contract, whatever others do.**  What a read in a crowd has
come to is the course of an operation. -/
theorem course_of_reachable (h : Crowd.Reachable (rules s shift) (Crowd.empty w₀) c) :
    (∀ x ∈ c.tasks, x.2.Follows s x.1) ∧ ∀ x ∈ c.results, ∃ ms,
      Operation.Course s (Fetch.attempts s x.1.offset x.1.len) ms (.done x.2) := by
  refine (h.separate (W := fun _ => True) (E := fun _ _ => True)
    (T := fun _ k p => p.Follows s k) (R := fun k b => ∃ ms,
      Operation.Course s (Fetch.attempts s k.offset k.len) ms (.done b)) ⟨?_, ?_, ?_, ?_, ?_⟩ trivial).2
  · exact fun _ _ => ⟨rfl, rfl, [], _, .nil, rfl⟩
  · exact fun hp _ => hp
  · intro w w' k p t _ hp hstep
    obtain ⟨hoffset, hlen, ms, t', hcourse, hnext⟩ := hp
    obtain ⟨ot, hturn, hgo, hend⟩ := next?_step hstep
    rw [hoffset, hlen] at hturn
    have hmore := hcourse.snoc hnext w
    rw [hturn] at hmore
    refine ⟨trivial, trivial, fun p' hp' => ?_, fun b hb => ?_⟩
    · rw [hgo] at hp'
      obtain ⟨o, ho, rfl⟩ := Option.map_eq_some_iff.1 hp'
      exact ⟨hoffset, hlen, _, _, hmore, ho⟩
    · rw [(hend b).1 hb] at hmore
      exact ⟨_, hmore⟩
  · exact fun _ _ => ⟨trivial, trivial⟩
  · exact fun _ _ => ⟨trivial, trivial⟩

end PoolRead

end RemoteFile
