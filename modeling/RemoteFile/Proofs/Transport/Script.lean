import RemoteFile.Proofs.Pool.Crowd
import RemoteFile.Transport.Script

/-!
# Pools over a script

A pool whose transport follows a script, without waiting between attempts. What happens in it can
be computed, which shows that the statements about every run speak of some.
-/

namespace RemoteFile

namespace Script

/-- A pool with the given options for an object of the given size, and at most so many attempts
for each read. -/
def setting (size : Nat) (pool : PoolOptions) (attempts : Nat) : Setting State Ticket :=
  { net := transport, renewer := none
    options := { Options.standard with pool := pool, retry := RetryPolicy.immediate attempts }
    size := size, rests := false, sample := fun _ => 0, clock := fun _ => 0 }

/-- The same with a renewer, whose calls come to what `ask` says. -/
def renewing (size : Nat) (pool : PoolOptions) (attempts : Nat) (ask : Nat → RenewerReply) :
    Setting State Ticket :=
  { setting size pool attempts with renewer := some ask }

/-- Nothing has happened, and these responses will be given one after the other. -/
def world (bodies : List Body) : World State :=
  World.fresh ⟨[], bodies.map fun b => ⟨some 0, .ok b⟩⟩ "https://example.com/a.bin" none

/-- Two reads, and both their first attempts look for a connection. -/
def twoReads : List (Crowd.Deed Wanted) :=
  [.join ⟨0, 2⟩, .join ⟨1, 1⟩, .turn 0, .turn 1, .turn 0, .turn 1]

end Script

end RemoteFile
