import RemoteFile.Task
import RemoteFile.Transport

/-!
# Schedules

Runs several tasks in one world until all have ended. Every task in turn goes on until it waits;
when all wait and nothing has changed, the clock moves to the next time that one of them waits for.
A task can be set to begin later, and to be dropped if it has not ended by a deadline; a result at
the deadline counts.
-/

namespace RemoteFile

/-- How a world keeps time. -/
structure Timeline (ω : Type) where
  /-- The time, in milliseconds. -/
  now : ω → Nat
  /-- Moves the clock to a time. -/
  moveTo : Nat → ω → ω

/-- A task that begins later, or that has to end by a deadline. -/
inductive Timed (α : Type) where
  /-- Begins at a time, with so many milliseconds to go from then on. -/
  | later (start : Nat) (limit : Option Nat) (a : α)
  /-- Has begun and is dropped at a deadline. -/
  | begun (deadline : Option Nat) (a : α)

namespace Timed

variable {ω α β : Type}

/-- One turn of a task with a deadline. Its result is none if it is dropped. -/
def step (time : Timeline ω) (actor : Actor ω α β) (t : Timed α) (w : ω) :
    Turn (Timed α) (Option β) × ω :=
  match t with
  | .later start limit a =>
    if start ≤ time.now w then (.moved (.begun (limit.map (time.now w + ·)) a), w)
    else (.waits t (some start), w)
  | .begun deadline a =>
    match actor.step a w with
    | (.moved a, w) => (.moved (.begun deadline a), w)
    | (.done b, w) => (.done (some b), w)
    | (.waits a wake, w) =>
      if hasCome (time.now w) deadline then (.done none, actor.drop a w)
      else (.waits (.begun deadline a) (earlier wake deadline), w)

/-- Drops a task. -/
def drop (actor : Actor ω α β) (t : Timed α) (w : ω) : ω :=
  match t with
  | .later _ _ _ => w
  | .begun _ a => actor.drop a w

/-- Tasks with a beginning and a deadline as tasks. -/
def actor (time : Timeline ω) (inner : Actor ω α β) : Actor ω (Timed α) (Option β) :=
  ⟨step time inner, drop inner⟩

end Timed

namespace Schedule

variable {ω α β : Type}

/-- A task, as far as the schedule knows it. -/
inductive Slot (α β : Type) where
  /-- It goes on, and has nothing to do before this time. -/
  | live (a : α) (wake : Option Nat)
  /-- It has ended. -/
  | ended (b : β)

/-- The result of a task that has ended. -/
def Slot.result? : Slot α β → Option β
  | .live _ _ => none
  | .ended b => some b

/-- When a task has something to do again. -/
def Slot.wake : Slot α β → Option Nat
  | .live _ wake => wake
  | .ended _ => none

/-- Lets a task go on until it waits, for so many turns at most; also says whether anything has
happened. -/
def drive (time : Timeline ω) (actor : Actor ω α β) : Nat → Bool → α → ω → Slot α β × Bool × ω
  | 0, _, a, w => (.live a (some (time.now w)), true, w)
  | turns + 1, happened, a, w =>
    match actor.step a w with
    | (.moved a, w) => drive time actor turns true a w
    | (.waits a wake, w) => (.live a wake, happened, w)
    | (.done b, w) => (.ended b, true, w)

/-- Lets every task go on in turn. -/
def pass (time : Timeline ω) (actor : Actor ω α β) (turns : Nat) :
    List (Slot α β) → ω → List (Slot α β) × Bool × ω
  | [], w => ([], false, w)
  | .ended b :: rest, w =>
    let (rest, happened, w) := pass time actor turns rest w
    (.ended b :: rest, happened, w)
  | .live a _ :: rest, w =>
    let (slot, first, w) := drive time actor turns false a w
    let (rest, happened, w) := pass time actor turns rest w
    (slot :: rest, first || happened, w)

/-- The next time that one of the tasks waits for. -/
def nextWake (slots : List (Slot α β)) : Option Nat :=
  slots.foldl (fun t s => earlier t s.wake) none

/-- Runs the tasks for so many passes at most. -/
def run (time : Timeline ω) (actor : Actor ω α β) (turns : Nat) :
    Nat → List (Slot α β) → ω → List (Slot α β) × ω
  | 0, slots, w => (slots, w)
  | passes + 1, slots, w =>
    let (slots, happened, w) := pass time actor turns slots w
    if slots.all (·.result?.isSome) then (slots, w)
    else if happened then run time actor turns passes slots w
    else
      match nextWake slots with
      | none => (slots, w)
      | some t => run time actor turns passes slots (time.moveTo (max t (time.now w)) w)

/-- More turns than any run takes. -/
abbrev enough : Nat := 1000000000000

/-- Runs the tasks to their end. A task that never ends has no result. -/
def runAll (time : Timeline ω) (actor : Actor ω α β) (tasks : List α) (w : ω) :
    List (Option β) × ω :=
  let (slots, w) := run time actor enough enough (tasks.map fun a => .live a none) w
  (slots.map Slot.result?, w)

/-- Runs one task to its end. -/
def runOne (time : Timeline ω) (actor : Actor ω α β) (task : α) (w : ω) : Option β × ω :=
  let (results, w) := runAll time actor [task] w
  (results.head?.join, w)

end Schedule

end RemoteFile
