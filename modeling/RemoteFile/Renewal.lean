import RemoteFile.Url.Parse
import RemoteFile.World

/-!
# Renewals

Replacing a URL by a fresh one. Those who want to renew stand in line. Whoever has the turn looks
first whether the URL was replaced meanwhile, or whether a renewal failed since it joined the line;
either outcome is shared. Only else is the renewer called. A fresh URL has to be well-formed.

Main statement:

* `Renewal.usable_ok` : a URL that is used is well-formed.
-/

namespace RemoteFile

/-- Where a renewal stands. -/
inductive Renewal.Phase where
  /-- About to join the line. -/
  | arriving
  /-- In line with a ticket, having seen so many renewals completed. -/
  | queued (seen ticket : Nat)
  /-- The renewer was called and answers at this time. -/
  | asking (ticket : Nat) (due : Option Nat) (outcome : Except Failure FreshUrl)

/-- The renewal of a URL. -/
structure Renewal where
  /-- The URL to replace. -/
  stale : Source
  /-- It was not rejected yet. -/
  early : Bool
  /-- Where it stands. -/
  phase : Renewal.Phase

namespace Renewal

variable {σ τ : Type}

/-- A renewal that is about to begin. -/
def start (stale : Source) (early : Bool) : Renewal := ⟨stale, early, .arriving⟩

/-- The fresh URL, or the reason why there is none. -/
def usable : Except Failure FreshUrl → Except String FreshUrl
  | .error (.renewal reason) => .error reason
  | .error f => .error f.message
  | .ok signed =>
    match Url.parse signed.url with
    | .ok _ => .ok signed
    | .error fault => .error ("renewer returned an invalid URL: " ++ fault.message)

/-- The failure of a renewal that was completed after `seen` others. -/
def sharedFailure (seen : Nat) (r : Resolver) : Option String :=
  if seen < r.completed then r.failure else none

/-- The failure of a renewal without a renewer. -/
def unrenewable (stale : Source) : Failure :=
  .renewal (stale.url ++ " was rejected and no renewer is configured")

/-- The turn of the one that is first in line. -/
def takeTurn (s : Setting σ τ) (r : Renewal) (seen ticket : Nat) (w : World σ) :
    Turn Renewal (Except Failure Source) × World σ :=
  let leave (w : World σ) : World σ := w.resolve (·.leave ticket)
  if r.stale.generation < w.resolver.current.generation then
    (.done (.ok w.resolver.current), leave w)
  else
    match sharedFailure seen w.resolver with
    | some reason =>
      (.done (.error (.renewal reason)), leave (w.note (.sharingFailure r.stale.generation)))
    | none =>
      match s.renewer with
      | none => (.done (.error (unrenewable r.stale)), leave w)
      | some ask =>
        let reply := ask w.resolver.calls
        (.moved { r with phase := .asking ticket (reply.delay.map (w.now + ·)) reply.outcome },
          (w.record .renewerCall).resolve Resolver.called)

/-- What is noted of a fresh URL. -/
def noticeOf (s : Setting σ τ) (now : Nat) (fresh : Source) (early : Bool) : Notice :=
  if fresh.isExpired (s.clock now) Duration.zero then .renewedExpired fresh.generation
  else .renewed fresh.generation early

/-- The renewer has answered. -/
def complete (s : Setting σ τ) (r : Renewal) (ticket : Nat)
    (outcome : Except Failure FreshUrl) (w : World σ) :
    Turn Renewal (Except Failure Source) × World σ :=
  match usable outcome with
  | .error reason =>
    (.done (.error (.renewal reason)),
      (w.note (.renewalFailed r.stale.generation reason)).resolve
        fun x => (x.failed reason).leave ticket)
  | .ok signed =>
    let w := (w.count Counters.renewed).resolve fun x => (x.renewed signed r.early).leave ticket
    (.done (.ok w.resolver.current), w.note (noticeOf s w.now w.resolver.current r.early))

/-- One turn of a renewal. Nothing is awaited between the look at how many renewals were completed
and joining the line, so the two are one turn: whoever completes a renewal does so before both or
after both. -/
def step (s : Setting σ τ) (r : Renewal) (w : World σ) :
    Turn Renewal (Except Failure Source) × World σ :=
  match r.phase with
  | .arriving =>
    (.moved { r with phase := .queued w.resolver.completed w.resolver.nextTicket },
      w.resolve Resolver.enter)
  | .queued seen ticket =>
    if w.resolver.line.head? == some ticket then r.takeTurn s seen ticket w
    else (.waits r none, w)
  | .asking ticket due outcome =>
    if hasCome w.now due then r.complete s ticket outcome w else (.waits r due, w)

/-- Drops a renewal, which leaves the line. -/
def drop (r : Renewal) (w : World σ) : World σ :=
  match r.phase with
  | .arriving => w
  | .queued _ ticket | .asking ticket _ _ => w.resolve (·.leave ticket)

/-- Renewals as tasks. -/
def actor (s : Setting σ τ) : Actor (World σ) Renewal (Except Failure Source) :=
  ⟨step s, drop⟩

theorem usable_ok {outcome : Except Failure FreshUrl} {signed : FreshUrl}
    (h : usable outcome = .ok signed) : ∃ u, Url.parse signed.url = .ok u := by
  unfold usable at h
  split at h
  · simp at h
  · simp at h
  · split at h
    · rename_i u hu
      simp only [Except.ok.injEq] at h
      exact ⟨u, h ▸ hu⟩
    · simp at h

end Renewal

end RemoteFile
