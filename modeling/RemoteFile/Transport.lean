import RemoteFile.Body
import RemoteFile.Event

/-!
# Transports

A transport issues requests and says what comes of them. It is given by a type of states, a type of
tickets for the requests that are under way, and functions between them: `send` issues a request,
`due` says when the answer is there, and `probed` and `opened` collect it at that time. What a
transport does may depend on everything that it was asked before.

Main statement:

* `Transport.arrival_here_iff` : an answer that is there is not too late, whatever the deadline.
-/

namespace RemoteFile

/-- What a probe finds out about the object. -/
structure Probe where
  /-- The number of its bytes. -/
  size : Nat
  /-- The version of its content. -/
  etag : Option String
  /-- When it was changed last. -/
  lastModified : Option String
deriving DecidableEq, Repr

/-- Issues requests, with states `σ` and tickets `τ` for requests under way. -/
structure Transport (σ τ : Type) where
  /-- Issues a request at the given time. -/
  send : Nat → Call → σ → τ × σ × List Notice
  /-- When the answer is there; none if it never is. -/
  due : τ → Option Nat
  /-- Collects the answer to a probe. -/
  probed : τ → σ → Except Failure Probe
  /-- Collects the answer to a request for a range: a response that is open from then on. -/
  opened : τ → σ → Except Failure Body × σ × List Notice
  /-- Closes an open response. -/
  closed : σ → σ

/-- What can be seen and changed of a transport besides its requests. -/
structure Controls (σ : Type) where
  /-- The responses that are open, the most that ever were, and the requests so far. -/
  streams : σ → Option (Nat × Nat × Nat)
  /-- Injects a failure into the request with a number, or into the next one. -/
  inject : Option Nat → Injection → σ → σ
  /-- Rejects every URL but one. -/
  acceptOnly : String → σ → σ

/-- A transport that shows nothing and cannot be influenced. -/
def Controls.absent {σ : Type} : Controls σ := ⟨fun _ => none, fun _ _ s => s, fun _ s => s⟩

/-- Where a request stands. -/
inductive Arrival where
  /-- Its answer is there. -/
  | here
  /-- Its deadline has passed without one. -/
  | late
  /-- Neither happens before this time; none stands for never. -/
  | pending (wake : Option Nat)
deriving DecidableEq, Repr

/-- The earlier of two times that may never come. -/
def earlier : Option Nat → Option Nat → Option Nat
  | none, b => b
  | a, none => a
  | some a, some b => some (min a b)

/-- Has this time come? -/
def hasCome (now : Nat) : Option Nat → Bool
  | none => false
  | some t => t ≤ now

namespace Transport

variable {σ τ : Type} (net : Transport σ τ)

/-- Where a request with a deadline stands; an answer that is there counts, even at the deadline. -/
def arrival (ticket : τ) (deadline : Option Nat) (now : Nat) : Arrival :=
  if hasCome now (net.due ticket) then .here
  else if hasCome now deadline then .late
  else .pending (earlier (net.due ticket) deadline)

theorem arrival_here_iff (ticket : τ) (deadline : Option Nat) (now : Nat) :
    net.arrival ticket deadline now = .here ↔ hasCome now (net.due ticket) = true := by
  unfold arrival
  split
  · simp_all
  · split <;> simp_all

end Transport

end RemoteFile
