import RemoteFile.Transport

/-!
# The scripted transport

Answers every request with the next entry of a script, one list of entries for probes and one for
ranges; once a list is used up, its requests fail.
-/

namespace RemoteFile

namespace Script

/-- One entry of a script. -/
structure Entry (α : Type) where
  /-- How many milliseconds the answer takes; none if it never comes. -/
  delay : Option Nat
  /-- The answer. -/
  answer : Except Failure α

/-- What is left of a script. -/
structure State where
  /-- The answers to probes. -/
  probes : List (Entry Probe)
  /-- The answers to requests for a range. -/
  ranges : List (Entry Body)

/-- A request that waits for its answer. -/
structure Ticket where
  /-- When the answer is there; none if it never is. -/
  due : Option Nat
  /-- The answer if it is one to a probe. -/
  probe : Except Failure Probe
  /-- The answer if it is one to a request for a range. -/
  range : Except Failure Body

/-- The answer to a request past the end of the script. -/
def usedUp : Failure := .network "script exhausted"

/-- When an entry that is taken now is answered. -/
def dueOf {α : Type} (now : Nat) : Option (Entry α) → Option Nat
  | none => some now
  | some e => e.delay.map (now + ·)

/-- The answer of an entry. -/
def answerOf {α : Type} : Option (Entry α) → Except Failure α
  | none => .error usedUp
  | some e => e.answer

/-- Takes the next entry for a request. -/
def receive (now : Nat) (call : Call) (s : State) : Ticket × State × List Notice :=
  match call with
  | .probe _ =>
    (⟨dueOf now s.probes.head?, answerOf s.probes.head?, .error usedUp⟩,
      { s with probes := s.probes.tail }, [])
  | .openRange _ _ =>
    (⟨dueOf now s.ranges.head?, .error usedUp, answerOf s.ranges.head?⟩,
      { s with ranges := s.ranges.tail }, [])

/-- The transport that follows a script. -/
def transport : Transport State Ticket where
  send := receive
  due := Ticket.due
  probed t _ := t.probe
  opened t s := (t.range, s, [])
  closed s := s

end Script

end RemoteFile
