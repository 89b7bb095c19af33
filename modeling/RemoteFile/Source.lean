import RemoteFile.Failure
import RemoteFile.Duration

/-!
# Where a file is read from

URLs of remote files can expire. A `Source` is the URL of one generation; a `Resolver` holds the
current one, together with what it takes to let concurrent renewals share one outcome: a line of
those who wait to renew, how many renewals were completed, and why the latest one failed.
-/

namespace RemoteFile

/-- The URL of a file and how long it is good for. -/
structure Source where
  /-- The URL. -/
  url : String
  /-- How many renewals it took. -/
  generation : Nat
  /-- When it expires, in milliseconds on the wall clock; none if it does not. -/
  expiresAt : Option Int
deriving DecidableEq, Repr

/-- Does the URL expire within `margin` from the wall clock time `time`? -/
def Source.isExpired (s : Source) (time : Int) (margin : Duration) : Bool :=
  match s.expiresAt with
  | none => false
  | some t => t * Duration.nanosPerMilli ≤ time * Duration.nanosPerMilli + margin.nanos

/-- A fresh URL. -/
structure FreshUrl where
  /-- The URL. -/
  url : String
  /-- When it expires, in milliseconds on the wall clock; none if it does not. -/
  expiresAt : Option Int
deriving DecidableEq, Repr

/-- What one call of a renewer comes to. -/
structure RenewerReply where
  /-- How many milliseconds it takes; none if it never ends. -/
  delay : Option Nat
  /-- The fresh URL, or why there is none. -/
  outcome : Except Failure FreshUrl

/-- The current URL of a file, and the state of its renewal. -/
structure Resolver where
  /-- The URL that requests use. -/
  current : Source
  /-- Renewals that were completed, successful or not. -/
  completed : Nat
  /-- Why the latest of these failed, if it did. -/
  failure : Option String
  /-- The generation that a renewal ahead of expiry produced, if the latest success was one. -/
  earlyGeneration : Option Nat
  /-- Calls of the renewer so far. -/
  calls : Nat
  /-- The tickets of those who wait to renew, in order; the first one has its turn. -/
  line : List Nat
  /-- The next ticket. -/
  nextTicket : Nat
deriving DecidableEq, Repr

namespace Resolver

/-- A file at its first URL. -/
def fresh (url : String) (expiresAt : Option Int) : Resolver :=
  { current := ⟨url, 0, expiresAt⟩, completed := 0, failure := none, earlyGeneration := none
    calls := 0, line := [], nextTicket := 0 }

/-- Was the URL renewed before that was needed? -/
def isEarly (r : Resolver) (s : Source) : Bool := r.earlyGeneration == some s.generation

/-- Hands out a ticket and puts it at the end of the line. -/
def enter (r : Resolver) : Resolver :=
  { r with line := r.line ++ [r.nextTicket], nextTicket := r.nextTicket + 1 }

/-- Takes a ticket out of the line. -/
def leave (r : Resolver) (ticket : Nat) : Resolver := { r with line := r.line.erase ticket }

/-- Counts a call of the renewer. -/
def called (r : Resolver) : Resolver := { r with calls := r.calls + 1 }

/-- Completes a renewal that failed. -/
def failed (r : Resolver) (reason : String) : Resolver :=
  { r with completed := r.completed + 1, failure := some reason }

/-- Completes a renewal with a fresh URL. -/
def renewed (r : Resolver) (signed : FreshUrl) (early : Bool) : Resolver :=
  let generation := r.current.generation + 1
  { r with
    completed := r.completed + 1, failure := none
    current := ⟨signed.url, generation, signed.expiresAt⟩
    earlyGeneration := if early then some generation else none }

end Resolver

end RemoteFile
