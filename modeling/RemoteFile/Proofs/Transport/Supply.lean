import Mathlib.Logic.Relation
import RemoteFile.Proofs.Transport.Service

/-!
# Transports that serve every range in full

Whoever listens to a response pulls one chunk after the other, at any times, and gives each of them
the time that a read on a connection gives it. A response is in time for a listener if no pull
fails, is late or finds the end of the response before all bytes are there that are wanted. A
service is full if it answers every request for a range of the object within the limit, and by a
response that is in time for all bytes of the range.

Main statements:

* `Listener.InTime.later` : a response that is in time may be listened to at any later time.
* `Listener.inTime_chunk` : a chunk is in time.
* `Transport.full_prompt` : the transport that never fails serves every range in full.
-/

namespace RemoteFile

/-- There is a chunk, or it may still come. -/
def Pull.goesOn : Pull → Bool
  | .chunk _ | .pending _ => true
  | .failed _ | .ended | .late => false

/-- Somebody who listens to a response. -/
structure Listener where
  /-- What is still to arrive. -/
  body : Body
  /-- When it was listened to last. -/
  now : Nat
  /-- When the current pull is given up. -/
  deadline : Option Nat
  /-- How many bytes are wanted. -/
  wanted : Nat

namespace Listener

variable {idle : Duration} {l l' : Listener} {now : Nat}

/-- When a pull is given up that is made at the time `now`. -/
def limit (idle : Duration) (l : Listener) (now : Nat) : Nat :=
  l.deadline.getD (idle.timerFrom now)

/-- What the next pull makes of a listener. -/
inductive Hears (idle : Duration) (l : Listener) : Listener → Prop
  /-- A chunk arrives. -/
  | chunk {now : Nat} {bytes : List UInt8} {body : Body} (hnow : l.now ≤ now)
      (h : l.body.pull now (l.limit idle now) = (.chunk bytes, body)) :
      Hears idle l ⟨body, now, none, l.wanted - bytes.length⟩
  /-- Nothing does, so far. -/
  | pending {now wake : Nat} {body : Body} (hnow : l.now ≤ now)
      (h : l.body.pull now (l.limit idle now) = (.pending wake, body)) :
      Hears idle l ⟨body, now, some (l.limit idle now), l.wanted⟩

/-- Whenever the listener pulls, it gets on until all bytes are there. -/
def InTime (idle : Duration) (l : Listener) : Prop :=
  ∀ l', Relation.ReflTransGen (Hears idle) l l' → l'.wanted ≠ 0 →
    ∀ now, l'.now ≤ now → (l'.body.pull now (l'.limit idle now)).1.goesOn = true

theorem InTime.next (h : l.InTime idle) (hl : l.Hears idle l') : l'.InTime idle :=
  fun l'' hl'' => h l'' (.head hl hl'')

theorem InTime.goesOn (h : l.InTime idle) (hw : l.wanted ≠ 0) (hnow : l.now ≤ now) :
    (l.body.pull now (l.limit idle now)).1.goesOn = true :=
  h l .refl hw now hnow

/-- A response that is in time may be listened to at any later time. -/
theorem InTime.later (h : l.InTime idle) (hnow : l.now ≤ now) :
    InTime idle { l with now := now } := by
  intro l' hl' hw now' hnow'
  rcases hl'.cases_head with rfl | ⟨l₁, hfirst, hrest⟩
  · exact h.goesOn hw (hnow.trans hnow')
  · -- who pulls later could have pulled later before
    refine h l' (.head ?_ hrest) hw now' hnow'
    cases hfirst with
    | chunk hle hpull => exact .chunk (hnow.trans hle) hpull
    | pending hle hpull => exact .pending (hnow.trans hle) hpull

theorem inTime_of_wanted_eq_zero (h : l.wanted = 0) : l.InTime idle := by
  intro l' hl' hw
  have hnone : l'.wanted = 0 := by
    clear hw
    induction hl' with
    | refl => exact h
    | tail _ hs ih =>
      cases hs with
      | chunk => exact (congrArg (· - _) ih).trans (Nat.zero_sub _)
      | pending => exact ih
  exact absurd hnone hw

/-- **A chunk is in time** if what comes after it is. -/
theorem inTime_chunk {bytes : List UInt8} {rest : Body} {deadline : Option Nat} {wanted : Nat}
    (h : InTime idle ⟨rest, now, none, wanted - bytes.length⟩) :
    InTime idle ⟨.chunk bytes :: rest, now, deadline, wanted⟩ := by
  intro l' hl' hw now' hnow'
  rcases hl'.cases_head with rfl | ⟨l₁, hfirst, hrest⟩
  · rfl
  · cases hfirst with
    | chunk hle hpull =>
      cases hpull
      exact h.later hle l' hrest hw now' hnow'
    | pending _ hpull => cases hpull

end Listener

/-- The service answers every request for a range of the object, and answers it in full, within the
given limits. -/
structure Service.Full {σ τ : Type} {net : Transport σ τ} {shift : σ → σ → Prop}
    {data : List UInt8} (v : Service net shift data) (limits : Timeouts) : Prop where
  /-- The answer is there within the limit. -/
  due : ∀ {now start stop : Nat} {url : String} {ticket : τ} {st st' : σ} {notices : List Notice},
    v.good st → start < stop → stop ≤ data.length →
    net.send now (.openRange url (ByteRange.between start stop)) st = (ticket, st', notices) →
    ∃ due, net.due ticket = some due ∧ due ≤ limits.response.timerFrom now
  /-- It is a response that is in time for the whole range, from when it is there on. -/
  opened : ∀ {start stop due : Nat} {url : String} {ticket : τ} {st st' : σ}
    {answer : Except Failure Body} {notices : List Notice},
    v.good st → start < stop → stop ≤ data.length →
    v.awaits st ticket (.openRange url (ByteRange.between start stop)) →
    net.due ticket = some due → net.opened ticket st = (answer, st', notices) →
    ∃ body, answer = .ok body ∧ Listener.InTime limits.idle ⟨body, due, none, stop - start⟩

namespace Transport

variable {data : List UInt8}

theorem length_slice {start stop : Nat} (h : stop ≤ data.length) :
    (slice data start stop).length = stop - start := by
  rw [slice, List.length_take, List.length_drop]
  omega

/-- **The transport that never fails serves every range in full.** -/
theorem full_prompt (data : List UInt8) (shift : Unit → Unit → Prop) (limits : Timeouts) :
    (promptService data shift).Full limits where
  due _ _ _ _ := ⟨0, rfl, Nat.zero_le _⟩
  opened := by
    intro start stop due url ticket st st' answer notices _ _ hstop hcall _ hopened
    cases hcall
    cases hopened
    refine ⟨_, rfl, Listener.inTime_chunk (Listener.inTime_chunk ?_)⟩
    refine Listener.inTime_of_wanted_eq_zero ?_
    change stop - start - 0 - (slice data start (min stop data.length)).length = 0
    rw [Nat.min_eq_left hstop, length_slice hstop, Nat.sub_zero, Nat.sub_self]

end Transport

end RemoteFile
