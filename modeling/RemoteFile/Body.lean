import RemoteFile.Failure

/-!
# Response bodies

A response body is the list of what still arrives, in order: chunks of bytes, failures, and waits.
A reader pulls one chunk at a time and gives each pull a deadline. A pull that is too late leaves
the body as it is, so that the chunk is there for the next one.

Main statements:

* `Body.payload_pull_chunk` : a chunk that is pulled is the start of what was still to come.
* `Body.payload_pull` : a pull that yields no chunk loses no byte.
-/

namespace RemoteFile

/-- A part of a response body. -/
inductive Part where
  /-- Bytes; there may be none. -/
  | chunk (bytes : List UInt8)
  /-- The transfer fails; what follows can still be read. -/
  | failure (f : Failure)
  /-- Nothing for so many milliseconds after the part is first waited for. -/
  | pause (millis : Nat)
  /-- Nothing before this time. -/
  | pauseUntil (time : Nat)
  /-- Nothing ever again. -/
  | silence
deriving DecidableEq, Repr

/-- What still arrives of a response, in order; after the last part the response ends. -/
abbrev Body := List Part

/-- What a pull came to. -/
inductive Pull where
  /-- Bytes arrived; there may be none. -/
  | chunk (bytes : List UInt8)
  /-- The transfer failed. -/
  | failed (f : Failure)
  /-- The response has ended. -/
  | ended
  /-- The deadline passed first. -/
  | late
  /-- Neither happens before this time. -/
  | pending (wake : Nat)
deriving DecidableEq, Repr

namespace Body

/-- All bytes that still arrive. -/
def payload : Body → List UInt8
  | [] => []
  | .chunk bytes :: rest => bytes ++ payload rest
  | .failure _ :: rest | .pause _ :: rest | .pauseUntil _ :: rest | .silence :: rest =>
    payload rest

/-- What comes of waiting until `due` at the time `now`, where the pull ends at `deadline`. -/
def held (now deadline due : Nat) : Pull :=
  if deadline ≤ now then .late else .pending (min due deadline)

/-- Pulls the next chunk at the time `now`. What is there already beats the deadline. -/
def pull (now deadline : Nat) : Body → Pull × Body
  | [] => (.ended, [])
  | .chunk bytes :: rest => (.chunk bytes, rest)
  | .failure f :: rest => (.failed f, rest)
  | .pause millis :: rest =>
    if millis = 0 then pull now deadline rest
    else (held now deadline (now + millis), .pauseUntil (now + millis) :: rest)
  | .pauseUntil time :: rest =>
    if time ≤ now then pull now deadline rest
    else (held now deadline time, .pauseUntil time :: rest)
  | .silence :: rest => (held now deadline deadline, .silence :: rest)

theorem held_ne_chunk (now deadline due : Nat) (bytes : List UInt8) :
    held now deadline due ≠ .chunk bytes := by
  unfold held
  split <;> simp

theorem payload_pull_chunk {now deadline : Nat} {b : Body} {bytes : List UInt8}
    (h : (b.pull now deadline).1 = .chunk bytes) :
    b.payload = bytes ++ payload (b.pull now deadline).2 := by
  fun_induction pull now deadline b with
  | case1 => simp at h
  | case2 => simp_all [payload]
  | case3 => simp at h
  | case4 rest ih => exact ih h
  | case5 => exact absurd h (held_ne_chunk _ _ _ _)
  | case6 time rest _ ih => exact ih h
  | case7 => exact absurd h (held_ne_chunk _ _ _ _)
  | case8 => exact absurd h (held_ne_chunk _ _ _ _)

theorem payload_pull {now deadline : Nat} {b : Body}
    (h : ∀ bytes, (b.pull now deadline).1 ≠ .chunk bytes) :
    payload (b.pull now deadline).2 = b.payload := by
  fun_induction pull now deadline b with
  | case1 => rfl
  | case2 bytes => exact absurd rfl (h bytes)
  | case3 => rfl
  | case4 rest ih => exact ih h
  | case5 => rfl
  | case6 time rest _ ih => exact ih h
  | case7 => rfl
  | case8 => rfl

end Body

end RemoteFile
