import RemoteFile.File.Reader
import RemoteFile.Job

/-!
# Sessions with a file

An open file in use: reads at given positions, sequential readers that keep their position from one
read to the next, and everything that happens at once, such as closing the file.
-/

namespace RemoteFile

/-- A file in use. -/
structure Session (σ : Type) where
  /-- The file. -/
  world : World σ
  /-- The positions of its readers by their numbers. -/
  readers : List (Nat × Nat)

namespace Session

variable {σ τ : Type}

/-- Where a reader stands; one that was never used stands at the start. -/
def position (x : Session σ) (reader : Nat) : Nat := (x.readers.lookup reader).getD 0

/-- Moves a reader. -/
def moveReader (x : Session σ) (reader position : Nat) : Session σ :=
  { x with readers := (reader, position) :: x.readers.filter fun e => e.1 != reader }

/-- Changes the file. -/
def change (f : World σ → World σ) (x : Session σ) : Session σ := { x with world := f x.world }

/-- The time of a session. -/
def timeline : Timeline (Session σ) :=
  ⟨fun x => x.world.now, fun t => change fun w => { w with now := t }⟩

/-- A read on behalf of a reader or of nobody. -/
structure Task (τ : Type) where
  /-- The reader that moves. -/
  reader : Option Nat
  /-- The read. -/
  read : FileRead τ

/-- What a session answers. -/
inductive Reply (σ : Type) where
  /-- The bytes that were read. -/
  | bytes (r : Except Failure (List UInt8))
  /-- The bytes that a reader has read, and where it stands. -/
  | readerBytes (r : Except Failure (List UInt8)) (position : Nat)
  /-- Where a reader was to be moved, and where it stands. -/
  | readerMoved (r : Except Failure Nat) (position : Nat)
  /-- The file as it was. -/
  | seen (w : World σ)

/-- The answer to a read into a buffer, with all that the buffer holds then. -/
def Reply.into (buffer : List UInt8) : Reply σ → Reply σ
  | .readerBytes (.ok b) position => .readerBytes (.ok (Reader.buffered buffer b)) position
  | reply => reply

/-- A read by a reader has ended. -/
def readerDone (reader : Nat) (r : Except Failure (List UInt8)) (x : Session σ) :
    Reply σ × Session σ :=
  let position := Reader.moved (x.position reader) r
  (.readerBytes r position, x.moveReader reader position)

/-- One turn of a read. -/
def step (s : Setting σ τ) (t : Task τ) (x : Session σ) :
    Turn (Task τ) (Reply σ) × Session σ :=
  match t.read.step s x.world, t.reader with
  | (.moved r, w), _ => (.moved { t with read := r }, { x with world := w })
  | (.waits r wake, w), _ => (.waits { t with read := r } wake, { x with world := w })
  | (.done r, w), none => (.done (.bytes r), { x with world := w })
  | (.done r, w), some reader =>
    let (reply, x) := readerDone reader r { x with world := w }
    (.done reply, x)

/-- Reads in a session as tasks. -/
def actor (s : Setting σ τ) : Actor (Session σ) (Task τ) (Reply σ) :=
  ⟨step s, fun t => change (t.read.drop s)⟩

/-- Reads at a position. -/
def read (offset len : Nat) : Job (Session σ) (Task τ) (Reply σ) :=
  .task fun _ => ⟨none, FileRead.start offset len⟩

/-- Begins what a reader does; `how` decides from its position. -/
def byReader (reader : Nat)
    (how : Nat → Except (Except Failure (List UInt8)) (FileRead τ)) :
    Job (Session σ) (Task τ) (Reply σ) :=
  .start fun x =>
    match how (x.position reader) with
    | .ok r => (.inr ⟨some reader, r⟩, x)
    | .error r =>
      let (reply, x) := readerDone reader r x
      (.inl reply, x)

/-- Reads at most `len` bytes where a reader stands. -/
def readerRead (s : Setting σ τ) (reader len : Nat) : Job (Session σ) (Task τ) (Reply σ) :=
  byReader reader fun position => Reader.read s.size position len

/-- Reads exactly `len` bytes where a reader stands. -/
def readerReadExact (s : Setting σ τ) (reader len : Nat) :
    Job (Session σ) (Task τ) (Reply σ) :=
  byReader reader fun position => Reader.readExact s.size position len

/-- Moves a reader. -/
def readerSeek (s : Setting σ τ) (reader : Nat) (target : SeekFrom) :
    Job (Session σ) (Task τ) (Reply σ) :=
  .atOnce fun x =>
    match Reader.seek s.size (x.position reader) target with
    | .ok position => (.readerMoved (.ok position) position, x.moveReader reader position)
    | .error f => (.readerMoved (.error f) (x.position reader), x)

/-- Changes the file, and answers with the file as it was before. -/
def act (f : World σ → World σ) : Job (Session σ) (Task τ) (Reply σ) :=
  .atOnce fun x => (.seen x.world, x.change f)

theorem position_moveReader (x : Session σ) (reader position : Nat) :
    (x.moveReader reader position).position reader = position := by
  simp [moveReader, Session.position]

end Session

end RemoteFile
