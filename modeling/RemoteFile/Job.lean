import RemoteFile.Schedule
import RemoteFile.World

/-!
# Jobs

What is asked of a world at one moment: in its first turn a job looks at the world as it is then,
may change it, and either has its answer or goes on as a task.
-/

namespace RemoteFile

/-- The time of a world that is a file's. -/
def World.timeline {σ : Type} : Timeline (World σ) := ⟨World.now, fun t w => { w with now := t }⟩

/-- Something that is asked of a world. -/
inductive Job (ω α β : Type) where
  /-- Has not begun. -/
  | start (first : ω → (β ⊕ α) × ω)
  /-- Goes on as a task. -/
  | going (a : α)

namespace Job

variable {ω α β : Type}

/-- Changes the world and answers. -/
def atOnce (act : ω → β × ω) : Job ω α β :=
  .start fun w => (.inl (act w).1, (act w).2)

/-- A task that depends on the world as it is when it begins. -/
def task (begin : ω → α) : Job ω α β := .start fun w => (.inr (begin w), w)

/-- One turn of a job. -/
def step (inner : Actor ω α β) (j : Job ω α β) (w : ω) : Turn (Job ω α β) β × ω :=
  match j with
  | .start first =>
    match first w with
    | (.inl b, w) => (.done b, w)
    | (.inr a, w) => (.moved (.going a), w)
  | .going a =>
    let (turn, w) := inner.step a w
    (turn.map .going id, w)

/-- Drops a job. -/
def drop (inner : Actor ω α β) (j : Job ω α β) (w : ω) : ω :=
  match j with
  | .start _ => w
  | .going a => inner.drop a w

/-- Jobs as tasks. -/
def actor (inner : Actor ω α β) : Actor ω (Job ω α β) β := ⟨step inner, drop inner⟩

/-- A job that begins after a delay in milliseconds, and has so many milliseconds from then on. -/
structure Order (ω α β : Type) where
  /-- The delay. -/
  delay : Nat
  /-- The time that the job may take. -/
  limit : Option Nat
  /-- The job. -/
  job : Job ω α β

/-- Runs jobs at the same time. A job that never ends has no result, and one that is dropped has
an empty one. -/
def runAll (time : Timeline ω) (inner : Actor ω α β) (orders : List (Order ω α β)) (w : ω) :
    List (Option (Option β)) × ω :=
  Schedule.runAll time (Timed.actor time (actor inner))
    (orders.map fun o => .later (time.now w + o.delay) o.limit o.job) w

end Job

end RemoteFile
