import Mathlib.Data.List.Induction
import RemoteFile.Proofs.Operation.Stage

/-!
# The budget after any failures

A budget is told of one failure after the other, of any classes and in any order, also after it has
given up. It counts the attempts that it has granted, and these never exceed its limit; it renews
once at most; and a budget that is spent stays as it is.

Main statements:

* `Budget.afterFailures_append` : what is decided later depends on the budget that is left.
* `Budget.Accounts.next` : what one more failure keeps.
* `Budget.keeps_accounts` : what holds after any failures, and of the decision on the next one.
-/

namespace RemoteFile

namespace Budget

variable {policy : RetryPolicy} {b : Budget} {past : List RetryClass}

/-- The decisions on a sequence of failures. -/
def decisions (policy : RetryPolicy) (b : Budget) (past : List RetryClass) : List Decision :=
  (b.afterFailures policy past).map Prod.fst

/-- The budget that is left by a sequence of failures. -/
def leftBy (policy : RetryPolicy) (b : Budget) (past : List RetryClass) : Budget :=
  (((b.afterFailures policy past).getLast?).map Prod.snd).getD b

theorem leftBy_cons (policy : RetryPolicy) (b : Budget) (c : RetryClass) (past : List RetryClass) :
    b.leftBy policy (c :: past) = (b.afterFailure policy c).2.leftBy policy past := by
  simp only [leftBy, afterFailures, List.getLast?_cons]
  cases (afterFailures policy (b.afterFailure policy c).2 past).getLast? <;> rfl

/-- What is decided later depends on the budget that is left. -/
theorem afterFailures_append (policy : RetryPolicy) (b : Budget) (past later : List RetryClass) :
    b.afterFailures policy (past ++ later) =
      b.afterFailures policy past ++ (b.leftBy policy past).afterFailures policy later := by
  induction past generalizing b with
  | nil => rfl
  | cons c past ih =>
    rw [List.cons_append, afterFailures, ih, leftBy_cons]
    rfl

theorem decisions_snoc (policy : RetryPolicy) (b : Budget) (past : List RetryClass)
    (c : RetryClass) :
    b.decisions policy (past ++ [c]) =
      b.decisions policy past ++ [((b.leftBy policy past).afterFailure policy c).1] := by
  rw [decisions, afterFailures_append, List.map_append]
  rfl

theorem leftBy_snoc (policy : RetryPolicy) (b : Budget) (past : List RetryClass) (c : RetryClass) :
    b.leftBy policy (past ++ [c]) = ((b.leftBy policy past).afterFailure policy c).2 := by
  rw [leftBy, afterFailures_append]
  simp [afterFailures]

/-- A budget that has decided so on the failures so far. -/
structure Accounts (policy : RetryPolicy) (past : List RetryClass) (ds : List Decision)
    (b : Budget) : Prop where
  /-- Every decision but giving up has granted an attempt. -/
  attempts : b.attempts = 1 + ds.countP (· ≠ .giveUp)
  /-- No more are granted than there may be. -/
  bounded : b.attempts ≤ max 1 policy.maxAttempts
  /-- The URL was renewed once if it was renewed at all. -/
  renewals : ds.count .renew = b.renewed.toNat
  /-- A rejected URL was renewed, or there was no attempt left. -/
  rejected : .renew ∈ past → b.renewed = true ∨ policy.maxAttempts ≤ b.attempts

namespace Accounts

variable {ds : List Decision}

theorem giveUp {c : RetryClass} (h : Accounts policy past ds b)
    (hc : c = .renew → b.renewed = true ∨ policy.maxAttempts ≤ b.attempts) :
    Accounts policy (past ++ [c]) (ds ++ [.giveUp]) b where
  attempts := by simpa using h.attempts
  bounded := h.bounded
  renewals := by simpa using h.renewals
  rejected hmem := by
    rcases List.mem_append.1 hmem with hmem | hmem
    · exact h.rejected hmem
    · exact hc (List.mem_singleton.1 hmem).symm

/-- **What one more failure keeps.** -/
theorem next (h : Accounts policy past ds b) (c : RetryClass) :
    Accounts policy (past ++ [c]) (ds ++ [(b.afterFailure policy c).1])
      (b.afterFailure policy c).2 := by
  have hattempts := h.attempts
  have hrenewals := h.renewals
  have hdecided := decided policy b c
  generalize b.afterFailure policy c = next at hdecided
  obtain ⟨d, b'⟩ := next
  cases hdecided with
  | fatal hc => exact h.giveUp fun hc' => nomatch hc.symm.trans hc'
  | spent hc hb => exact h.giveUp fun _ => .inr hb
  | again hc hb hr => exact h.giveUp fun _ => .inl hr
  | renew hc hb hr =>
    refine ⟨?_, Nat.le_trans hb (Nat.le_max_right _ _), ?_, fun _ => .inl rfl⟩
    · simp only [List.countP_append, List.countP_singleton, hattempts]
      simp [Nat.add_assoc]
    · rw [hr] at hrenewals
      simpa using hrenewals
  | backoff hc hb =>
    refine ⟨?_, Nat.le_trans hb (Nat.le_max_right _ _), ?_, fun hmem => ?_⟩
    · simp only [List.countP_append, List.countP_singleton, hattempts]
      simp [Nat.add_assoc]
    · simpa [List.count_singleton] using hrenewals
    · rcases List.mem_append.1 hmem with hmem | hmem
      · exact (h.rejected hmem).imp_right (Nat.le_trans · (Nat.le_succ _))
      · rw [hc] at hmem
        cases List.mem_singleton.1 hmem

end Accounts

theorem accounts_fresh (policy : RetryPolicy) : Accounts policy [] [] fresh :=
  ⟨rfl, Nat.le_max_left _ _, rfl, nofun⟩

theorem accounts (policy : RetryPolicy) (past : List RetryClass) :
    Accounts policy past (fresh.decisions policy past) (fresh.leftBy policy past) := by
  induction past using List.reverseRecOn with
  | nil => exact accounts_fresh policy
  | append_singleton past c ih =>
    rw [decisions_snoc, leftBy_snoc]
    exact ih.next c

theorem afterFailures_of_isExhausted (h : b.isExhausted policy = true) (later : List RetryClass) :
    b.afterFailures policy later = List.replicate later.length (.giveUp, b) := by
  induction later with
  | nil => rfl
  | cons c later ih =>
    rw [afterFailures, afterFailure_of_isExhausted h, ih]
    rfl

theorem delay_of_backoff {c : RetryClass} {delay : Duration}
    (h : (b.afterFailure policy c).1 = .backoff delay) :
    delay = Backoff.delay policy b.attempts := by
  have hdecided := decided policy b c
  rw [h] at hdecided
  generalize (b.afterFailure policy c).2 = b' at hdecided
  cases hdecided
  rfl

/-- **A budget keeps its accounts.** After any failures, also after it has given up, a budget has
counted one attempt for the start and one for every decision but giving up. They are at most the
limit, where the first attempt is granted in any case, and so fit into 32 bits if the limit does;
and the URL was renewed once at most. A delay that is decided on next is that of the attempt that
has failed. A final failure changes nothing, nor does a URL that is rejected again; and a spent
budget gives up for ever and stays as it is. -/
theorem keeps_accounts (policy : RetryPolicy) (past : List RetryClass) :
    let b := fresh.leftBy policy past
    let ds := fresh.decisions policy past
    b.attempts = 1 + ds.countP (· ≠ .giveUp) ∧ b.attempts ≤ max 1 policy.maxAttempts ∧
      (policy.maxAttempts < shortLimit → b.attempts < shortLimit) ∧ ds.count .renew ≤ 1 ∧
      (∀ c delay, (b.afterFailure policy c).1 = .backoff delay →
        delay = Backoff.delay policy b.attempts) ∧
      b.afterFailure policy .fatal = (.giveUp, b) ∧
      (.renew ∈ past → b.afterFailure policy .renew = (.giveUp, b)) ∧
      (b.isExhausted policy = true → ∀ later : List RetryClass,
        (∀ d ∈ b.decisions policy later, d = .giveUp) ∧ b.leftBy policy later = b) := by
  intro b ds
  have h : Accounts policy past ds b := accounts policy past
  refine ⟨h.attempts, h.bounded, fun hlimit => ?_, ?_, fun c delay => delay_of_backoff,
    rfl, fun hmem => ?_, fun hspent later => ⟨fun d hd => ?_, ?_⟩⟩
  · exact Nat.lt_of_le_of_lt h.bounded (Nat.max_lt.2 ⟨by decide, hlimit⟩)
  · rw [h.renewals]
    exact Bool.toNat_le _
  · rcases h.rejected hmem with hr | hle
    · simp [afterFailure, hr]
    · exact afterFailure_of_isExhausted (by simpa [isExhausted] using hle) .renew
  · rw [decisions, afterFailures_of_isExhausted hspent, List.map_replicate] at hd
    exact (List.mem_replicate.1 hd).2
  · rw [leftBy, afterFailures_of_isExhausted hspent]
    cases later with
    | nil => rfl
    | cons c later => simp [List.getLast?_replicate]

/-- With three attempts, a transient failure and a rejected URL spend the budget. -/
theorem keeps_accounts_of_three :
    let policy := { RetryPolicy.standard with maxAttempts := 3 }
    let past := [RetryClass.fatal, .retryable, .renew, .retryable]
    (fresh.leftBy policy past).attempts = 3 ∧ policy.maxAttempts < shortLimit ∧
      (fresh.leftBy policy past).attempts < shortLimit ∧ RetryClass.renew ∈ past ∧
      (fresh.leftBy policy past).afterFailure policy .renew = (.giveUp, fresh.leftBy policy past) ∧
      (fresh.leftBy policy past).isExhausted policy = true ∧
      (fresh.leftBy policy past).leftBy policy [.retryable] = fresh.leftBy policy past := by
  intro policy past
  have h := keeps_accounts policy past
  have hlimit : policy.maxAttempts < shortLimit := by decide
  have hmem : RetryClass.renew ∈ past := by decide
  have hspent : (fresh.leftBy policy past).isExhausted policy = true := rfl
  exact ⟨rfl, hlimit, h.2.2.1 hlimit, hmem, h.2.2.2.2.2.2.1 hmem, hspent,
    (h.2.2.2.2.2.2.2 hspent [.retryable]).2⟩

end Budget

end RemoteFile
