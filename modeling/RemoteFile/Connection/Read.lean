import RemoteFile.World

/-!
# Reading on a connection

The turns of a read on one connection. Bytes that are skipped are counted when they are dropped,
whatever comes of the read; a read that succeeds notes the time.
-/

namespace RemoteFile

namespace Reading

variable {σ : Type}

/-- Counts the bytes that are skipped next, and notes when the wanted position is reached. -/
def noteSkip (r : Reading) (w : World σ) : World σ :=
  let w := w.count (·.discarded r.dropped)
  if r.ahead != 0 && r.ahead == r.dropped then w.note (.skipped r.conn.id r.skip) else w

/-- One turn of a read, each wait for a chunk being limited to `idle`. It ends with the bytes or a
failure, and with the connection as it is then. -/
def step (idle : Duration) (r : Reading) (w : World σ) :
    Turn Reading (Except Failure (List UInt8) × Connection) × World σ :=
  let w := r.noteSkip w
  let r := r.consume
  if r.isComplete then (.done (.ok r.bytes, r.conn.touch w.now), w)
  else
    match r.receive w.now idle with
    | .arrived r => (.moved r, w)
    | .waits r wake => (.waits r (some wake), w)
    | .failed f c => (.done (.error f, c), w)

/-- Reads on a connection as tasks. -/
def actor (idle : Duration) :
    Actor (World σ) Reading (Except Failure (List UInt8) × Connection) :=
  ⟨step idle, fun _ w => w⟩

theorem step_of_isComplete (idle : Duration) {r : Reading} (w : World σ)
    (h : r.consume.isComplete = true) :
    (r.step idle w).1 = .done (.ok r.consume.bytes, r.consume.conn.touch w.now) := by
  simp only [step, h, if_true]
  congr 2
  simp only [noteSkip]
  split <;> rfl

end Reading

end RemoteFile
