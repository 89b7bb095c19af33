import RemoteFile.Renewal
import RemoteFile.Retry.Budget

/-!
# Operations

An operation makes attempts until one succeeds, until one fails for good, or until its budget is
spent. Each attempt uses the current URL; one that is about to expire is renewed first, unless it
comes from such a renewal itself. After a failure the operation waits, or renews the URL that was
rejected, and then tries again.
-/

namespace RemoteFile

/-- How the attempts of an operation are made. -/
structure Attempts (ω α β : Type) extends Actor ω α (Except Failure β) where
  /-- The attempt with the given number, the first one being 1, at a URL. -/
  start : Nat → Source → α

/-- Attempts that come to given outcomes at once, and succeed with `last` after these. -/
def Attempts.given {ω β : Type} (outcomes : List (Except Failure β)) (last : β) :
    Attempts ω Nat β where
  step k w := (.done (outcomes.getD k (.ok last)), w)
  drop _ w := w
  start number _ := number - 1

/-- Where an operation stands. -/
inductive Operation.Phase (α : Type) where
  /-- About to take the URL of the next attempt. -/
  | choosing
  /-- Renewing a URL that is about to expire. -/
  | refreshing (r : Renewal)
  /-- Making an attempt with a URL. -/
  | attempting (used : Source) (a : α)
  /-- Renewing a URL that was rejected. -/
  | renewing (r : Renewal)
  /-- Waiting to try again. -/
  | resting (due : Nat)

/-- An operation that is under way. -/
structure Operation (α : Type) where
  /-- The attempts made so far. -/
  budget : Budget
  /-- Where it stands. -/
  phase : Operation.Phase α

namespace Operation

variable {σ τ α β : Type}

/-- An operation that is about to begin. -/
def fresh : Operation α := ⟨Budget.fresh, .choosing⟩

/-- What an operation that ends leaves in the world, with its result. -/
abbrev Outcome (σ α β : Type) := Turn (Operation α) (Except Failure β) × World σ

/-- The delay before the next attempt: spread by the next random number. -/
def spreadDelay (s : Setting σ τ) (delay : Duration) (w : World σ) : Duration :=
  Backoff.spread delay s.options.retry.jitter (s.sample w.draws)

/-- Makes the next attempt with the given URL. -/
def attempt (work : Attempts (World σ) α β) (o : Operation α) (source : Source) (w : World σ) :
    Outcome σ α β :=
  (.moved { o with phase := .attempting source (work.start o.budget.attempts source) },
    w.record (.attempt source.url source.generation))

/-- Takes the current URL, or renews it first if it is about to expire. -/
def choose (s : Setting σ τ) (work : Attempts (World σ) α β) (o : Operation α) (w : World σ) :
    Outcome σ α β :=
  let current := w.resolver.current
  if s.renewer.isNone || !current.isExpired (s.clock w.now) s.options.expiryMargin then
    o.attempt work current w
  else if w.resolver.isEarly current then
    if current.isExpired (s.clock w.now) Duration.zero then
      o.attempt work current (w.note (.usingExpired current.generation))
    else o.attempt work current w
  else
    (.moved { o with phase := .refreshing (Renewal.start current true) },
      w.note (.aboutToExpire current.generation))

/-- Waits before the next attempt. -/
def rest (s : Setting σ τ) (o : Operation α) (delay : Duration) (f : Failure) (w : World σ) :
    Outcome σ α β :=
  let spread := spreadDelay s delay w
  let w := (w.note (.retrying o.budget.attempts spread f)).count Counters.retried
  let w := { w with draws := w.draws + 1 }.record (.sleep spread)
  (.moved { o with phase := if s.rests then .resting (spread.timerFrom w.now) else .choosing }, w)

/-- Deals with the failure of an attempt that was made with the URL `used`. -/
def recover (s : Setting σ τ) (o : Operation α) (f : Failure) (used : Source) (w : World σ) :
    Outcome σ α β :=
  let (decision, budget) := o.budget.afterFailure s.options.retry f.retryClass
  match decision with
  | .giveUp =>
    if f.retryClass != .fatal && budget.isExhausted s.options.retry then
      (.done (.error (.exhausted budget.attempts f)), w.note (.budgetExhausted budget.attempts f))
    else (.done (.error f), w)
  | .renew =>
    (.moved ⟨budget, .renewing (Renewal.start used false)⟩,
      (w.note (.rejected budget.attempts f)).count Counters.retried)
  | .backoff delay => rest s ⟨budget, o.phase⟩ delay f w

/-- One turn of an operation. -/
def step (s : Setting σ τ) (work : Attempts (World σ) α β) (o : Operation α) (w : World σ) :
    Outcome σ α β :=
  match o.phase with
  | .choosing => o.choose s work w
  | .refreshing r =>
    match r.step s w with
    | (.moved r, w) => (.moved { o with phase := .refreshing r }, w)
    | (.waits r wake, w) => (.waits { o with phase := .refreshing r } wake, w)
    | (.done (.ok source), w) => o.attempt work source w
    | (.done (.error f), w) => (.done (.error f), w)
  | .attempting used a =>
    match work.step a w with
    | (.moved a, w) => (.moved { o with phase := .attempting used a }, w)
    | (.waits a wake, w) => (.waits { o with phase := .attempting used a } wake, w)
    | (.done (.ok b), w) => (.done (.ok b), w)
    | (.done (.error f), w) => o.recover s f used w
  | .renewing r =>
    match r.step s w with
    | (.moved r, w) => (.moved { o with phase := .renewing r }, w)
    | (.waits r wake, w) => (.waits { o with phase := .renewing r } wake, w)
    | (.done (.ok _), w) => (.moved { o with phase := .choosing }, w)
    | (.done (.error f), w) => (.done (.error f), w)
  | .resting due =>
    if due ≤ w.now then (.moved { o with phase := .choosing }, w) else (.waits o (some due), w)

/-- Drops an operation with all that it has begun. -/
def drop (work : Attempts (World σ) α β) (o : Operation α) (w : World σ) : World σ :=
  match o.phase with
  | .choosing | .resting _ => w
  | .refreshing r | .renewing r => r.drop w
  | .attempting _ a => work.drop a w

/-- Operations as tasks. -/
def actor (s : Setting σ τ) (work : Attempts (World σ) α β) :
    Actor (World σ) (Operation α) (Except Failure β) :=
  ⟨step s work, drop work⟩

end Operation

end RemoteFile
