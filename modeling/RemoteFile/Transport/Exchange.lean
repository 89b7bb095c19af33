import RemoteFile.World

/-!
# Single exchanges

One call to the transport, without retries and without counting: the way to open a connection
outside of a pool, or to use a transport directly.
-/

namespace RemoteFile

/-- A call that is under way. -/
inductive Exchange (τ : Type) where
  /-- About to be made. -/
  | unsent (c : Call)
  /-- Waiting for the answer. -/
  | sent (c : Call) (ticket : τ) (deadline : Option Nat)

namespace Exchange

variable {σ τ : Type}

/-- What a call comes to. -/
inductive Answer where
  /-- The metadata of an object. -/
  | probe (p : Probe)
  /-- An open response. -/
  | body (b : Body)
deriving DecidableEq, Repr

/-- Collects the answer to a call. -/
def collect (s : Setting σ τ) (c : Call) (ticket : τ) (w : World σ) :
    Except Failure Answer × World σ :=
  match c with
  | .probe _ => ((s.net.probed ticket w.net).map .probe, w)
  | .openRange _ _ =>
    let (answer, w) := w.collect s ticket
    (answer.map .body, w)

/-- One turn of a call, which takes no longer than `limit` if that is given. -/
def step (s : Setting σ τ) (limit : Option Duration) (e : Exchange τ) (w : World σ) :
    Turn (Exchange τ) (Except Failure Answer) × World σ :=
  match e with
  | .unsent c =>
    let (ticket, w) := w.issue s c
    (.moved (.sent c ticket (limit.map (·.timerFrom w.now))), w)
  | .sent c ticket deadline =>
    match s.net.arrival ticket deadline w.now with
    | .pending wake => (.waits e wake, w)
    | .late => (.done (.error (noResponse (limit.getD Duration.zero))), w)
    | .here =>
      let (answer, w) := collect s c ticket w
      (.done answer, w)

/-- Single calls as tasks. -/
def actor (s : Setting σ τ) (limit : Option Duration) :
    Actor (World σ) (Exchange τ) (Except Failure Answer) :=
  ⟨step s limit, fun _ w => w⟩

end Exchange

end RemoteFile
