import RemoteFile.World

/-!
# Draining a response

Reads a response to its end or to its first failure, within a time limit for the whole of it, and
closes it.
-/

namespace RemoteFile

/-- A response that is read to its end. -/
structure Drain where
  /-- What is left of it. -/
  body : Body
  /-- Its chunks so far, the latest first. -/
  chunks : List (List UInt8)
  /-- When it is given up. -/
  deadline : Nat

namespace Drain

variable {σ τ : Type}

/-- How a response ended, with its chunks. -/
inductive Result where
  /-- It ended, or failed at its end. -/
  | ended (chunks : List (List UInt8)) (failure : Option Failure)
  /-- It was given up. -/
  | stalled

/-- Begins to read a response within a limit. -/
def start (limit : Duration) (body : Body) (w : World σ) : Drain :=
  ⟨body, [], limit.timerFrom w.now⟩

/-- One turn. -/
def step (s : Setting σ τ) (d : Drain) (w : World σ) : Turn Drain Result × World σ :=
  match d.body.pull w.now d.deadline with
  | (.chunk bytes, body) => (.moved { d with body := body, chunks := bytes :: d.chunks }, w)
  | (.failed f, _) => (.done (.ended d.chunks.reverse (some f)), w.hangUp s)
  | (.ended, _) => (.done (.ended d.chunks.reverse none), w.hangUp s)
  | (.late, _) => (.done .stalled, w.hangUp s)
  | (.pending wake, body) => (.waits { d with body := body } (some wake), w)

/-- Reading to the end as a task. -/
def actor (s : Setting σ τ) : Actor (World σ) Drain Result := ⟨step s, fun _ => World.hangUp s⟩

end Drain

end RemoteFile
