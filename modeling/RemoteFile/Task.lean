/-!
# Tasks

A task is something that goes on while other tasks do: its state is a value, and an `Actor` says
how it takes its next turn in a shared world, and what happens when it is dropped half way. A turn
is short: whatever lies between two turns of one task may be interleaved with turns of others.
-/

namespace RemoteFile

/-- What a turn of a task leads to. -/
inductive Turn (α β : Type) where
  /-- The task goes on. -/
  | moved (next : α)
  /-- The task has nothing to do before this time, or before the world changes. -/
  | waits (next : α) (wake : Option Nat)
  /-- The task has ended. -/
  | done (result : β)
deriving DecidableEq, Repr

namespace Turn

variable {α β γ δ : Type}

/-- The turn of a larger task that this task is a part of, and whose result is told otherwise. -/
def map (f : α → γ) (g : β → δ) : Turn α β → Turn γ δ
  | moved a => moved (f a)
  | waits a wake => waits (f a) wake
  | done b => done (g b)

end Turn

/-- How tasks with states `α` and results `β` act in a world `ω`. -/
structure Actor (ω α β : Type) where
  /-- One turn. -/
  step : α → ω → Turn α β × ω
  /-- The task is dropped. -/
  drop : α → ω → ω

/-- A part of a world, and how to put another one in its place. -/
structure Focus (ω υ : Type) where
  /-- The part. -/
  get : ω → υ
  /-- The world with another part. -/
  set : υ → ω → ω

namespace Actor

variable {ω υ α β γ : Type}

/-- The same tasks, with results that are told otherwise. -/
def map (f : β → γ) (actor : Actor ω α β) : Actor ω α γ :=
  ⟨fun a w => ((actor.step a w).1.map id f, (actor.step a w).2), actor.drop⟩

/-- The same tasks in a larger world. -/
def within (part : Focus ω υ) (actor : Actor υ α β) : Actor ω α β :=
  ⟨fun a w =>
      let (turn, u) := actor.step a (part.get w)
      (turn, part.set u w),
    fun a w => part.set (actor.drop a (part.get w)) w⟩

end Actor

end RemoteFile
