import RemoteFile.File.Session
import RemoteFile.Proofs.File.Sound
import RemoteFile.Proofs.Transport.Script
import RemoteFile.Proofs.World.Requests

/-!
# Exact reads

A reader that is asked for exactly `len` bytes yields them and stands behind them, or it fails and
stands where it stood. It says at once that the file is too short, and bothers nobody with that.

There is one exception, which has to do with the greatest number of 64 bits. The end of a read is
computed as if no position were greater, so that no read appears to go past the end of a file of
that very size. Such a file yields what it has, and the rest of the buffer stays as it was.

What others do to the file meanwhile is left open, as long as the transport goes on to serve the
object and nobody else moves the reader.

Main statements:

* `Reader.readExact_decides` : what an exact read comes to before anything is read.
* `Session.meanwhile_step` : reads on behalf of others are such a thing.
* `Session.readExact_fills` : an exact read fills its buffer or fails.
* `Session.readExact_at_greatest_size` : the exception.
-/

namespace RemoteFile

/-! ### Before anything is read -/

namespace Reader

variable {τ : Type}

/-- What an exact read comes to before anything is read. -/
inductive Decides (size position len : Nat) :
    Except (Except Failure (List UInt8)) (FileRead τ) → Prop
  /-- Nothing is wanted. -/
  | nothing (h : len = 0) : Decides size position len (.error (.ok []))
  /-- More is wanted than there is. -/
  | beyond (h : 0 < len) (hout : size < position + len) (hsize : size ≠ positionLimit - 1) :
      Decides size position len (.error (.error (.outOfRange position size)))
  /-- There is nothing, but it goes unnoticed that this is too little. -/
  | unnoticed (h : 0 < len) (hsize : size = positionLimit - 1) (hout : size ≤ position) :
      Decides size position len (.error (.ok []))
  /-- Bytes are to be read. -/
  | reads (h : 0 < len) (hlt : position < size)
      (hin : position + len ≤ size ∨ size = positionLimit - 1) :
      Decides size position len (.ok (FileRead.start position len))

theorem readExact_decides {size position len : Nat} (hsize : size < positionLimit) :
    Decides size position len (readExact size position len : Except _ (FileRead τ)) := by
  have hlimit : positionLimit = 18446744073709551616 := rfl
  unfold readExact read
  split
  · rename_i h
    exact .nothing h
  · split
    · exact .beyond (by omega) (by omega) (by omega)
    · split
      · exact .unnoticed (by omega) (by omega) (by omega)
      · exact .reads (by omega) (by omega) (by omega)

theorem buffered_of_length_eq {buffer bytes : List UInt8} (h : bytes.length = buffer.length) :
    buffered buffer bytes = bytes := by
  rw [buffered, List.drop_eq_nil_of_le h.ge, List.append_nil]

end Reader

namespace Session

variable {σ τ : Type} {s : Setting σ τ} {shift : σ → σ → Prop} {data : List UInt8}
  {v : Service s.net shift data} {reader : Nat} {x x' x'' : Session σ}

/-! ### What others do -/

/-- What may happen to a session while a reader is in use: the transport goes on to serve the
object, and nobody else moves the reader. -/
structure Meanwhile (v : Service s.net shift data) (reader : Nat) (x x' : Session σ) : Prop where
  /-- The world goes on. -/
  world : x.world.Onward v x'.world
  /-- The reader stays. -/
  position : x'.position reader = x.position reader

theorem position_moveReader_of_ne {other position : Nat} (h : reader ≠ other) :
    (x.moveReader other position).position reader = x.position reader := by
  have hne : (reader == other) = false := beq_false_of_ne h
  have hlookup : ∀ l : List (Nat × Nat),
      (l.filter fun e => e.1 != other).lookup reader = l.lookup reader := by
    intro l
    induction l with
    | nil => rfl
    | cons e l ih =>
      obtain ⟨number, p⟩ := e
      by_cases hn : number = other
      · simp [hn, hne, List.lookup_cons, ih]
      · simp [hn, List.lookup_cons, ih]
  simp only [Session.position, moveReader, List.lookup_cons, hne, hlookup]

theorem step_eq (s : Setting σ τ) (t : Task τ) (x : Session σ) :
    step s t x =
      match t.read.step s x.world, t.reader with
      | (.moved r, w), _ => (.moved { t with read := r }, { x with world := w })
      | (.waits r wake, w), _ => (.waits { t with read := r } wake, { x with world := w })
      | (.done r, w), none => (.done (.bytes r), { x with world := w })
      | (.done r, w), some reader =>
        (.done (readerDone reader r { x with world := w }).1,
          (readerDone reader r { x with world := w }).2) := rfl

/-- A turn of a read on behalf of somebody else is something that may happen. -/
theorem meanwhile_step {k : Wanted} {t : Task τ} {turn : Turn (Task τ) (Reply σ)}
    (hsize : s.size = data.length) (hw : x.world.Sound v) (ht : t.read.Sound v k x.world)
    (hother : t.reader ≠ some reader) (h : step s t x = (turn, x')) :
    Meanwhile v reader x x' := by
  rcases hstep : t.read.step s x.world with ⟨tr, w⟩
  have hk := FileRead.sound_step hsize hw ht hstep
  rw [step_eq, hstep] at h
  cases tr with
  | moved r | waits r wake =>
    cases h
    exact ⟨hk.world, rfl⟩
  | done r =>
    cases hreader : t.reader with
    | none =>
      rw [hreader] at h
      cases h
      exact ⟨hk.world, rfl⟩
    | some other =>
      rw [hreader] at h hother
      cases h
      exact ⟨hk.world, position_moveReader_of_ne fun heq => hother (congrArg some heq.symm)⟩

/-- So is what happens to a file besides the turns of its reads. -/
theorem meanwhile_outside {info : FileInfo} {w' : World σ} (hw : x.world.Sound v)
    (h : FileRead.Outside s info shift x.world w') :
    Meanwhile v reader x { x with world := w' } :=
  ⟨FileRead.onward_outside hw h, rfl⟩

/-! ### The course of an exact read -/

/-- The turns that a job has taken on behalf of a reader, the latest first: the session that each of
them has found, and what the latest one has come to, with the session that it has left. -/
inductive Course (v : Service s.net shift data) (reader : Nat)
    (job : Job (Session σ) (Task τ) (Reply σ)) (x₀ : Session σ) : List (Session σ) →
    Turn (Job (Session σ) (Task τ) (Reply σ)) (Reply σ) → Session σ → Prop
  /-- The job is about to begin. -/
  | nil : Course v reader job x₀ [] (.moved job) x₀
  /-- It takes one more turn, after whatever has happened meanwhile. -/
  | snoc {xs : List (Session σ)} {t : Turn (Job (Session σ) (Task τ) (Reply σ)) (Reply σ)}
      {x x' : Session σ} {j : Job (Session σ) (Task τ) (Reply σ)}
      (h : Course v reader job x₀ xs t x) (ht : t.next? = some j) (hm : Meanwhile v reader x x') :
      Course v reader job x₀ (x' :: xs) (j.step (actor s) x').1 (j.step (actor s) x').2

/-- Where an exact read of `len` bytes at `position` stands that has not ended. -/
inductive Pending (v : Service s.net shift data) (reader position len : Nat) (x : Session σ) :
    Job (Session σ) (Task τ) (Reply σ) → Prop
  /-- It has not begun. -/
  | unbegun : Pending v reader position len x (readerReadExact s reader len)
  /-- It reads. -/
  | reads {r : FileRead τ} (hr : r.Sound v ⟨position, len⟩ x.world)
      (hin : position + len ≤ s.size ∨ s.size = positionLimit - 1) :
      Pending v reader position len x (.going ⟨some reader, r⟩)

theorem Pending.meanwhile {position len : Nat} {j : Job (Session σ) (Task τ) (Reply σ)}
    (h : Pending v reader position len x j) (hm : Meanwhile v reader x x') :
    Pending v reader position len x' j := by
  cases h with
  | unbegun => exact .unbegun
  | reads hr hin => exact .reads (hr.onward hm.world) hin

/-- The bytes that an exact read of `len` bytes at `position` comes to, if it comes to any. -/
structure Fills (data : List UInt8) (position len : Nat) (b : Except Failure (List UInt8)) :
    Prop where
  /-- They are the bytes of the object, as far as it goes. -/
  yields : ∀ bytes, b = .ok bytes → bytes = slice data position (position + len)
  /-- None is missing, unless the file is of the greatest size and too short. -/
  complete : ∀ bytes, b = .ok bytes →
    position + len ≤ data.length ∨ data.length ≠ positionLimit - 1 → bytes.length = len

/-- What a turn of an exact read of `len` bytes at `position` comes to, and the session that it
leaves. -/
structure Goes (v : Service s.net shift data) (reader position len : Nat)
    (t : Turn (Job (Session σ) (Task τ) (Reply σ)) (Reply σ)) (x : Session σ) : Prop where
  /-- The world goes on. -/
  world : x.world.Sound v
  /-- The reader stays as long as the read goes on. -/
  next : ∀ j, t.next? = some j → x.position reader = position ∧ Pending v reader position len x j
  /-- In the end it is moved past what was read. -/
  done : ∀ reply, t = .done reply → ∃ b, reply = .readerBytes b (x.position reader) ∧
    x.position reader = Reader.moved position b ∧ Fills data position len b

section

variable {position len : Nat} {b : Except Failure (List UInt8)}
  {j : Job (Session σ) (Task τ) (Reply σ)}

theorem fills_error (f : Failure) : Fills data position len (.error f) := ⟨nofun, nofun⟩

theorem fills_nothing (hlen : len = 0 ∨ data.length ≤ position)
    (hin : len = 0 ∨ data.length = positionLimit - 1) : Fills data position len (.ok []) := by
  refine ⟨fun bytes hb => ?_, fun bytes hb hfits => ?_⟩ <;> cases hb
  · rw [slice, Nat.add_sub_cancel_left]
    rcases hlen with rfl | hle
    · rfl
    · rw [List.drop_eq_nil_of_le hle, List.take_nil]
  · rw [List.length_nil]
    omega

theorem fills_of_met {bytes : List UInt8} (h : Wanted.Met data ⟨position, len⟩ bytes)
    (hin : position + len ≤ data.length ∨ data.length = positionLimit - 1) :
    Fills data position len (.ok bytes) := by
  have hlength : bytes.length = min len (data.length - position) := h.length_eq
  have hprefix : bytes = (data.drop position).take bytes.length :=
    List.prefix_iff_eq_take.1 h.bytes
  refine ⟨fun bytes' hb => ?_, fun bytes' hb hfits => ?_⟩ <;> cases hb
  · refine hprefix.trans ?_
    rw [slice, Nat.add_sub_cancel_left, List.take_eq_take_iff, List.length_drop, hlength]
    omega
  · omega

theorem goes_of_next {t : Turn (Job (Session σ) (Task τ) (Reply σ)) (Reply σ)}
    (hw : x.world.Sound v) (ht : t.next? = some j) (hx : x.position reader = position)
    (hj : Pending v reader position len x j) : Goes v reader position len t x := by
  refine ⟨hw, fun j' hj' => ?_, ?_⟩
  · rw [ht] at hj'
    cases hj'
    exact ⟨hx, hj⟩
  · rintro reply rfl
    cases ht

theorem goes_done (hw : x.world.Sound v) (hx : x.position reader = position)
    (hb : Fills data position len b) :
    Goes v reader position len (.done (readerDone reader b x).1) (readerDone reader b x).2 := by
  refine ⟨hw, fun j hj => (by cases hj), fun reply hreply => ⟨b, ?_, ?_, hb⟩⟩
  · cases hreply
    simp only [readerDone, position_moveReader]
  · simp only [readerDone, position_moveReader, hx]

theorem step_byReader (s : Setting σ τ) (reader : Nat)
    (how : Nat → Except (Except Failure (List UInt8)) (FileRead τ)) (x : Session σ) :
    (byReader reader how).step (actor s) x =
      match how (x.position reader) with
      | .ok r => (.moved (.going ⟨some reader, r⟩), x)
      | .error b => (.done (readerDone reader b x).1, (readerDone reader b x).2) := by
  simp only [byReader, Job.step]
  cases how (x.position reader) <;> rfl

theorem step_readExact (s : Setting σ τ) (reader len : Nat) (x : Session σ) :
    (readerReadExact s reader len).step (actor s) x =
      match Reader.readExact s.size (x.position reader) len with
      | .ok r => (.moved (.going ⟨some reader, r⟩), x)
      | .error b => (.done (readerDone reader b x).1, (readerDone reader b x).2) :=
  step_byReader s reader _ x

theorem Pending.turn (hsize : s.size = data.length) (hlimit : data.length < positionLimit)
    (hw : x.world.Sound v) (hx : x.position reader = position)
    (h : Pending v reader position len x j) :
    Goes v reader position len (j.step (actor s) x).1 (j.step (actor s) x).2 := by
  cases h with
  | unbegun =>
    have hdecides : Reader.Decides data.length position len
      (Reader.readExact data.length position len : Except _ (FileRead τ)) :=
      Reader.readExact_decides hlimit
    rw [step_readExact, hsize, hx]
    generalize (Reader.readExact data.length position len : Except _ (FileRead τ)) = d at hdecides
    cases hdecides with
    | nothing hlen => exact goes_done hw hx (fills_nothing (.inl hlen) (.inl hlen))
    | beyond => exact goes_done hw hx (fills_error _)
    | unnoticed _ hgreatest hout =>
      exact goes_done hw hx (fills_nothing (.inr hout) (.inr hgreatest))
    | reads _ _ hin =>
      exact goes_of_next hw rfl hx
        (.reads (FileRead.sound_start ⟨position, len⟩ x.world) (hsize.symm ▸ hin))
  | @reads r hr hin =>
    rcases hstep : r.step s x.world with ⟨tr, w⟩
    have hk := FileRead.sound_step hsize hw hr hstep
    have hturn : Job.step (actor s) (.going ⟨some reader, r⟩) x =
      (((step s ⟨some reader, r⟩ x).1).map .going id, (step s ⟨some reader, r⟩ x).2) := rfl
    rw [hturn, step_eq, hstep]
    cases tr with
    | moved r' | waits r' =>
      exact goes_of_next hk.world.sound rfl hx (.reads (hk.next r' rfl) hin)
    | done b =>
      have hb : Fills data position len b := by
        cases b with
        | error f => exact fills_error f
        | ok bytes => exact fills_of_met (hk.done bytes rfl) (hsize ▸ hin)
      exact goes_done hk.world.sound hx hb

theorem Course.goes {x₀ : Session σ} {xs : List (Session σ)}
    {t : Turn (Job (Session σ) (Task τ) (Reply σ)) (Reply σ)} (hsize : s.size = data.length)
    (hlimit : data.length < positionLimit) (hw : x₀.world.Sound v)
    (h : Course v reader (readerReadExact s reader len) x₀ xs t x) :
    Goes v reader (x₀.position reader) len t x := by
  induction h with
  | nil => exact goes_of_next hw rfl rfl .unbegun
  | snoc h ht hm ih =>
    obtain ⟨hx, hpending⟩ := ih.next _ ht
    exact (hpending.meanwhile hm).turn hsize hlimit hm.world.sound (hm.position.trans hx)

end

/-- **An exact read fills its buffer or fails.** In whatever sessions it takes its turns, while the
transport goes on to serve the object and nobody else moves the reader: if it asks for more than
there is from its position on, it says so in its first turn and changes nothing. If it succeeds, the
reader has moved past what was read, which are the bytes of the object from its position on, as many
as the buffer holds. If it fails, the reader stays. The one exception is a file of the greatest size
that is too short. -/
theorem readExact_fills {x₀ : Session σ} {position : Nat} (len : Nat)
    (hsize : s.size = data.length) (hlimit : data.length < positionLimit)
    (hw : x₀.world.Sound v) (hx : x₀.position reader = position) :
    (∀ y, Meanwhile v reader x₀ y → 0 < len → data.length < position + len →
      data.length ≠ positionLimit - 1 →
      ∃ x, (readerReadExact s reader len).step (actor s) y =
          (.done (.readerBytes (.error (.outOfRange position data.length)) position), x) ∧
        x.world = y.world ∧ x.position reader = position) ∧
      ∀ xs reply x, Course v reader (readerReadExact s reader len) x₀ xs (.done reply) x →
        ∃ b, reply = .readerBytes b (x.position reader) ∧
          (∀ f, b = .error f → x.position reader = position) ∧
          ∀ bytes, b = .ok bytes →
            bytes = slice data position (position + len) ∧
              x.position reader = position + bytes.length ∧
              (position + len ≤ data.length ∨ data.length ≠ positionLimit - 1 →
                x.position reader = position + len ∧
                  ∀ buffer : List UInt8, buffer.length = len →
                    reply.into buffer =
                      .readerBytes (.ok (slice data position (position + len)))
                        (x.position reader)) := by
  constructor
  · intro y hm hlen hout hgreatest
    have hdecides : Reader.Decides data.length position len
      (Reader.readExact data.length position len : Except _ (FileRead τ)) :=
      Reader.readExact_decides hlimit
    have hy : y.position reader = position := hm.position.trans hx
    rw [step_readExact, hsize, hy]
    generalize (Reader.readExact data.length position len : Except _ (FileRead τ)) = d at hdecides
    cases hdecides with
    | beyond =>
      refine ⟨y.moveReader reader position, ?_, rfl, position_moveReader _ _ _⟩
      simp only [readerDone, Reader.moved, hy]
    | nothing | unnoticed | reads => omega
  · intro xs reply x h
    obtain ⟨b, hreply, hposition, hfills⟩ := (h.goes hsize hlimit hw).done reply rfl
    rw [hx] at hposition hfills
    refine ⟨b, hreply, ?_, ?_⟩
    · rintro f rfl
      exact hposition
    · rintro bytes rfl
      refine ⟨hfills.yields bytes rfl, hposition, fun hfits => ?_⟩
      have hlength := hfills.complete bytes rfl hfits
      refine ⟨by rw [hposition, Reader.moved, hlength], fun buffer hbuffer => ?_⟩
      rw [hreply, Reply.into, Reader.buffered_of_length_eq (hlength.trans hbuffer.symm),
        ← hfills.yields bytes rfl]

/-! ### A reader by itself -/

/-- So many turns of a job on behalf of a reader, while nothing else happens, with the sessions that
they have found. -/
def alone (s : Setting σ τ) (job : Job (Session σ) (Task τ) (Reply σ)) (x : Session σ) :
    Nat → List (Session σ) × Turn (Job (Session σ) (Task τ) (Reply σ)) (Reply σ) × Session σ
  | 0 => ([], .moved job, x)
  | n + 1 =>
    let before := alone s job x n
    match before.2.1.next? with
    | some j => (before.2.2 :: before.1, j.step (actor s) before.2.2)
    | none => before

theorem course_alone {x₀ : Session σ} (reader len : Nat) (hsize : s.size = data.length)
    (hlimit : data.length < positionLimit) (hw : x₀.world.Sound v) (n : Nat) :
    Course v reader (readerReadExact s reader len) x₀
      (alone s (readerReadExact s reader len) x₀ n).1
      (alone s (readerReadExact s reader len) x₀ n).2.1
      (alone s (readerReadExact s reader len) x₀ n).2.2 := by
  induction n with
  | zero => exact .nil
  | succ n ih =>
    rw [alone]
    split
    · rename_i j hj
      exact ih.snoc hj ⟨(ih.goes hsize hlimit hw).world.onward, rfl⟩
    · exact ih

/-- The file of five bytes, once its size is known. -/
def openedFiveBytes : Setting Unit Call := { FileRead.fiveBytes with size := 5 }

/-- A reader that stands at the second of the five bytes. -/
def atSecondByte : Session Unit := ⟨.fresh () "https://example.com/a.bin" none, [(0, 1)]⟩

/-- Three bytes are read from the second one on; six are too many. -/
theorem readExact_fills_of_three :
    (∃ x, (readerReadExact openedFiveBytes 0 6).step (actor openedFiveBytes) atSecondByte =
        (.done (.readerBytes (.error (.outOfRange 1 5)) 1), x) ∧ x.world = atSecondByte.world) ∧
      (alone openedFiveBytes (readerReadExact openedFiveBytes 0 3) atSecondByte 14).2.1 =
        .done (.readerBytes (.ok [11, 12, 13]) 4) ∧
      (.readerBytes (.ok [11, 12, 13]) 4 : Reply Unit).into [0, 0, 0] =
        .readerBytes (.ok (slice [10, 11, 12, 13, 14] 1 4)) 4 := by
  let v := Transport.promptService [10, 11, 12, 13, 14] fun _ _ => False
  have hw : World.Sound (s := openedFiveBytes) v atSecondByte.world := ⟨trivial, nofun⟩
  have hx : atSecondByte.position 0 = 1 := rfl
  obtain ⟨hbeyond, -⟩ := readExact_fills 6 rfl (by decide) hw hx
  obtain ⟨-, hfills⟩ := readExact_fills 3 rfl (by decide) hw hx
  obtain ⟨x, hstep, hworld, -⟩ := hbeyond atSecondByte ⟨hw.onward, rfl⟩ (by decide) (by decide)
    (by decide)
  -- the fourteenth turn is the last one
  have hcourse := course_alone 0 3 rfl (by decide) hw 14
  have hdone : (alone openedFiveBytes (readerReadExact openedFiveBytes 0 3) atSecondByte 14).2.1 =
    .done (.readerBytes (.ok [11, 12, 13]) 4) := rfl
  rw [hdone] at hcourse
  obtain ⟨b, hreply, -, hbytes⟩ := hfills _ _ _ hcourse
  cases hreply
  exact ⟨⟨x, hstep, hworld⟩, hdone, ((hbytes _ rfl).2.2 (.inl (by decide))).2 _ rfl⟩

/-- A file of the greatest size whose bytes cannot be found. -/
def greatestFile : Setting Script.State Script.Ticket :=
  Script.setting 18446744073709551615 ⟨1, 0, .ofSeconds 10, none⟩ 1

/-- A reader of that file at the given position; the only request will be refused. -/
def greatestSession (position : Nat) : Session Script.State :=
  ⟨.fresh ⟨[], [⟨some 0, .error (.status 404 "https://example.com/a.bin")⟩]⟩
    "https://example.com/a.bin" none, [(0, position)]⟩

/-- **Ten bytes are too many at the end of a file of the greatest size, but this goes
unnoticed.** At the very end the read succeeds and the buffer stays as it was; one byte before it
the transport is called. -/
theorem readExact_at_greatest_size :
    greatestFile.size < 18446744073709551614 + 10 ∧
    ((readerReadExact greatestFile 0 10).step (actor greatestFile)
        (greatestSession 18446744073709551615)).1 =
      .done (.readerBytes (.ok []) 18446744073709551615) ∧
    (.readerBytes (.ok []) 18446744073709551615 : Reply Script.State).into (.replicate 10 7) =
      .readerBytes (.ok (.replicate 10 7)) 18446744073709551615 ∧
    (alone greatestFile (readerReadExact greatestFile 0 10)
        (greatestSession 18446744073709551614) 20).2.1 =
      .done (.readerBytes (.error (.status 404 "https://example.com/a.bin"))
        18446744073709551614) ∧
    (alone greatestFile (readerReadExact greatestFile 0 10)
        (greatestSession 18446744073709551614) 20).2.2.world.requests =
      [("https://example.com/a.bin", ⟨18446744073709551614, some 18446744073709551615⟩)] := by
  refine ⟨by decide, ?_, ?_, ?_, ?_⟩
  · rfl
  · rfl
  · rfl
  · rfl

end Session

end RemoteFile
