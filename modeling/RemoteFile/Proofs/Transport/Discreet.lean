import RemoteFile.Transport.Http
import RemoteFile.Transport.Memory
import RemoteFile.Transport.Script

/-!
# What the log tells of closed connections

Whenever a connection is counted as evicted or as discarded, its number is written to the log. What
the log tells of this is what the pool tells: a transport writes notices of its own, none of which
is about a connection that is closed.

Main statements:

* `Script.discreet`, `Memory.discreet`, `Http.discreet` : no transport tells of connections that are
  closed.
-/

namespace RemoteFile

variable {σ τ : Type}

namespace Event

/-- The connection that is counted as evicted when the event is entered. -/
def evicted? : Event → Option Nat
  | .notice (.closingStale id) | .notice (.evicting id _) => some id
  | _ => none

/-- The connection that is counted as discarded when the event is entered. -/
def discarded? : Event → Option Nat
  | .notice (.discarding id _ _) => some id
  | _ => none

/-- Does the event tell of a connection that is closed and counted? -/
def ofClosing : Event → Bool
  | .notice (.closingStale _) | .notice (.evicting _ _) | .notice (.discarding _ _ _) => true
  | _ => false

theorem evicted?_eq_none {e : Event} (h : e.ofClosing = false) : e.evicted? = none := by
  unfold evicted?
  split
  · cases h
  · cases h
  · rfl

theorem discarded?_eq_none {e : Event} (h : e.ofClosing = false) : e.discarded? = none := by
  unfold discarded?
  split
  · cases h
  · rfl

end Event

/-- The transport leaves it to the pool to tell of connections that are closed. -/
structure Transport.Discreet (net : Transport σ τ) : Prop where
  /-- When a request is issued. -/
  send : ∀ now call st, ∀ n ∈ (net.send now call st).2.2, (Event.notice n).ofClosing = false
  /-- When an answer is collected. -/
  opened : ∀ ticket st, ∀ n ∈ (net.opened ticket st).2.2, (Event.notice n).ofClosing = false

theorem Script.discreet : Script.transport.Discreet where
  send now call st n hn := by
    cases call <;> cases hn
  opened ticket st n hn := by
    cases hn

theorem Memory.discreet (store : Memory.Store) : (Memory.transport store).Discreet where
  send now call st n hn := by
    cases List.mem_singleton.1 hn
    rfl
  opened ticket st n hn := by
    have hnil : ((Memory.transport store).opened ticket st).2.2 = [] := by
      simp only [Memory.transport, Memory.opened]
      split
      · rfl
      · rfl
      · split
        · rfl
        · split <;> rfl
    rw [hnil] at hn
    cases hn

theorem Http.discreet (headers : List (String × String)) (peer : Http.Peer) :
    (Http.transport headers peer).Discreet where
  send now call st n hn := by
    have hnil : ((Http.transport headers peer).send now call st).2.2 = [] := by
      simp only [Http.transport, Http.receive]
      split <;> rfl
    rw [hnil] at hn
    cases hn
  opened ticket st n hn := by
    simp only [Http.transport, Http.opened] at hn
    split at hn
    · cases hn
    · simp only [Http.notices] at hn
      split at hn
      · cases List.mem_singleton.1 hn
        rfl
      · cases hn

end RemoteFile
