import RemoteFile.Retry.Backoff

/-!
# The retry budget

How many attempts one operation has made, whether it has renewed its URL, and what it does after a
failure. The budget never sleeps and touches no network.
-/

namespace RemoteFile

/-- What to do after a failed attempt. -/
inductive Decision where
  /-- Wait, then try again. -/
  | backoff (delay : Duration)
  /-- Get a fresh URL, then try again at once. -/
  | renew
  /-- Report the failure. -/
  | giveUp
deriving DecidableEq, Repr

/-- The attempts of one operation. -/
structure Budget where
  /-- Attempts started so far. -/
  attempts : Nat
  /-- The URL has been renewed on behalf of this operation. -/
  renewed : Bool
deriving DecidableEq, Repr

namespace Budget

/-- The first attempt is under way. -/
def fresh : Budget := ⟨1, false⟩

/-- No further attempt is allowed. -/
def isExhausted (policy : RetryPolicy) (b : Budget) : Bool := policy.maxAttempts ≤ b.attempts

/-- Records that the current attempt failed, and decides what is next. A fresh URL that is
rejected again is not worth another round. -/
def afterFailure (policy : RetryPolicy) (b : Budget) : RetryClass → Decision × Budget
  | .fatal => (.giveUp, b)
  | .renew =>
    if b.isExhausted policy || b.renewed then (.giveUp, b)
    else (.renew, ⟨b.attempts + 1, true⟩)
  | .retryable =>
    if b.isExhausted policy then (.giveUp, b)
    else (.backoff (Backoff.delay policy b.attempts), { b with attempts := b.attempts + 1 })

/-- The decisions after a sequence of failures, each with the budget that it leaves. -/
def afterFailures (policy : RetryPolicy) (b : Budget) : List RetryClass → List (Decision × Budget)
  | [] => []
  | c :: r =>
    let next := b.afterFailure policy c
    next :: afterFailures policy next.2 r

theorem afterFailure_of_isExhausted {policy : RetryPolicy} {b : Budget}
    (h : b.isExhausted policy = true) (c : RetryClass) :
    b.afterFailure policy c = (.giveUp, b) := by
  cases c <;> simp [afterFailure, h]

end Budget

end RemoteFile
