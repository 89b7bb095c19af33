import RemoteFile.Proofs.File.Length
import RemoteFile.Proofs.File.Reader

/-!
# A reader is a cursor

A reader is used by one call after the other, each of which reads at most so many bytes or moves
the reader, and each of which may be dropped before it ends. Seen from outside it is a position and
nothing else: `Cursor.Step` says what becomes of a call by the position, and where the position is
then. What happens beneath and besides decides only whether a read fails.

How the bytes of a read are counted does not depend on the transport, and which bytes they are
depends on what it serves. Both are laws of the reads of a file, and a reader inherits either.

Main statements:

* `Reader.seek_decides` : a reader moves to the position that a target names in the integers, if 64
  bits can hold it.
* `Cursor.Path.bytes_eq_slice` : reads that follow one another yield slices that do.
* `Session.Stands.turn` : a turn of a call leaves the reader alone, or ends with a step of a cursor.
* `Session.History.path` : a history of calls is a path of the cursor.
* `Session.reader_is_cursor` : a reader is a cursor.
-/

namespace RemoteFile

/-! ### Moving -/

namespace SeekFrom

/-- The position that a target names, in the integers. -/
def aim (size position : Nat) : SeekFrom → Int
  | .start target => target
  | .stop by_ => size + by_
  | .current by_ => position + by_

/-- A target that is counted from the start is a position. -/
def Fits : SeekFrom → Prop
  | .start target => target < positionLimit
  | .stop _ | .current _ => True

end SeekFrom

namespace Reader

/-- What moving a reader comes to. -/
inductive SeekDecides (aim : Int) : Except Failure Nat → Prop
  /-- There is such a position. -/
  | moves {position : Nat} (haim : aim = position) (hlt : position < positionLimit) :
      SeekDecides aim (.ok position)
  /-- There is none. -/
  | stays (h : aim < 0 ∨ (positionLimit : Nat) ≤ aim) : SeekDecides aim (.error .negativeSeek)

theorem displaced_decides (base : Nat) (by_ : Int) :
    SeekDecides (base + by_) (displaced base by_) := by
  unfold displaced
  split
  · exact .moves (by omega) (by omega)
  · exact .stays (by omega)

theorem seek_decides (size position : Nat) {target : SeekFrom} (h : target.Fits) :
    SeekDecides (target.aim size position) (seek size position target) := by
  cases target with
  | start target => exact .moves rfl h
  | stop by_ => exact displaced_decides size by_
  | current by_ => exact displaced_decides position by_

end Reader

/-! ### Cursors -/

namespace Cursor

/-- What a reader is asked for. -/
inductive Request where
  /-- At most so many bytes. -/
  | read (len : Nat)
  /-- Another position. -/
  | seek (target : SeekFrom) (fits : target.Fits)

/-- A request to a reader at a position of a file of the given size that needs no byte of it: there
is none to read, or none is asked for. -/
def Request.NeedsNone (size p : Nat) : Request → Prop
  | .read _ => size ≤ p
  | .seek _ _ => True

/-- A request, and the answer to it unless it was dropped. -/
abbrev Call (σ : Type) := Request × Option (Session.Reply σ)

variable {σ : Type} {size start p p' : Nat} {holds : Nat → List UInt8 → Prop} {call : Call σ}
  {log : List (Call σ)}

/-- What becomes of a call of a cursor that stands at a position in a file of the given size, and
where it stands then; `holds` says which bytes there are at a position. -/
inductive Step (size : Nat) (holds : Nat → List UInt8 → Prop) (p : Nat) : Call σ → Nat → Prop
  /-- There is nothing to read. -/
  | atEnd {len : Nat} (h : size ≤ p) :
      Step size holds p (.read len, some (.readerBytes (.ok []) p)) p
  /-- Bytes are read, as many as are wanted and there. -/
  | reads {len : Nat} {bytes : List UInt8} (h : p < size)
      (hlength : bytes.length = min len (size - p)) (hbytes : holds p bytes) :
      Step size holds p (.read len, some (.readerBytes (.ok bytes) (p + bytes.length)))
        (p + bytes.length)
  /-- The read fails. -/
  | fails {len : Nat} (h : p < size) (f : Failure) :
      Step size holds p (.read len, some (.readerBytes (.error f) p)) p
  /-- The position is the one that the target names. -/
  | moves {target : SeekFrom} {fits : target.Fits} {p' : Nat} (haim : target.aim size p = p')
      (hlt : p' < positionLimit) :
      Step size holds p (.seek target fits, some (.readerMoved (.ok p') p')) p'
  /-- The target names no position of 64 bits. -/
  | stays {target : SeekFrom} {fits : target.Fits}
      (h : target.aim size p < 0 ∨ (positionLimit : Nat) ≤ target.aim size p) :
      Step size holds p (.seek target fits, some (.readerMoved (.error .negativeSeek) p)) p
  /-- The call is dropped. -/
  | dropped (request : Request) : Step size holds p (request, none) p

/-- What becomes of calls that follow one another, the latest first. -/
inductive Path (size : Nat) (holds : Nat → List UInt8 → Prop) (start : Nat) :
    List (Call σ) → Nat → Prop
  /-- There was none. -/
  | nil : Path size holds start [] start
  /-- There is one more. -/
  | snoc {log : List (Call σ)} {call : Call σ} {p p' : Nat} (h : Path size holds start log p)
      (hs : Step size holds p call p') : Path size holds start (call :: log) p'

theorem Step.lt (h : Step size holds p call p') (hsize : size < positionLimit)
    (hp : p < positionLimit) : p' < positionLimit := by
  cases h with
  | atEnd | fails | stays | dropped => exact hp
  | reads hlt hlength => omega
  | moves _ hlt => exact hlt

theorem Path.lt (h : Path size holds start log p) (hsize : size < positionLimit)
    (hstart : start < positionLimit) : p < positionLimit := by
  induction h with
  | nil => exact hstart
  | snoc _ hs ih => exact hs.lt hsize ih

theorem Path.exists_of_append {earlier : List (Call σ)} :
    ∀ {later : List (Call σ)} {p : Nat}, Path size holds start (later ++ earlier) p →
      ∃ q, Path size holds start earlier q ∧ Path size holds q later p
  | [], _, h => ⟨_, h, .nil⟩
  | _ :: _, _, .snoc h hs =>
    have ⟨q, hearlier, hlater⟩ := exists_of_append h
    ⟨q, hearlier, hlater.snoc hs⟩

/-- The cursor was moved to where it should be. -/
def moved : Call σ → Bool
  | (_, some (.readerMoved (.ok _) _)) => true
  | _ => false

/-- The bytes that a call yields. -/
def bytesOf : Call σ → List UInt8
  | (_, some (.readerBytes (.ok bytes) _)) => bytes
  | _ => []

/-- The bytes that calls yield one after the other. -/
def bytes (log : List (Call σ)) : List UInt8 := log.reverse.flatMap bytesOf

theorem bytes_cons (call : Call σ) (log : List (Call σ)) :
    bytes (call :: log) = bytes log ++ bytesOf call := by
  simp [bytes]

/-- The bytes at a position in an object. -/
def OfObject (data : List UInt8) (p : Nat) (bytes : List UInt8) : Prop :=
  bytes = slice data p (p + bytes.length)

variable {data : List UInt8}

/-- A call that does not move a cursor elsewhere moves it past what it yields. -/
theorem Step.bytesOf_eq_slice (h : Step size (OfObject data) p call p')
    (hmoved : moved call = false) : p ≤ p' ∧ bytesOf call = slice data p p' := by
  cases h with
  | atEnd | fails | stays | dropped => exact ⟨Nat.le_refl _, (slice_self data p).symm⟩
  | reads _ _ hbytes => exact ⟨Nat.le_add_right _ _, hbytes⟩
  | moves => cases hmoved

/-- **Reads that follow one another yield slices that do**, whatever has failed in between. -/
theorem Path.bytes_eq_slice (h : Path size (OfObject data) start log p)
    (hmoved : ∀ call ∈ log, moved call = false) : start ≤ p ∧ bytes log = slice data start p := by
  induction h with
  | nil => exact ⟨Nat.le_refl _, (slice_self data start).symm⟩
  | @snoc log call p p' _ hs ih =>
    obtain ⟨hle, hlog⟩ := ih fun c hc => hmoved c (List.mem_cons_of_mem _ hc)
    obtain ⟨hle', hcall⟩ := hs.bytesOf_eq_slice (hmoved call List.mem_cons_self)
    refine ⟨Nat.le_trans hle hle', ?_⟩
    rw [bytes_cons, hlog, hcall, slice_append data hle hle']

end Cursor

/-! ### Laws of reads -/

namespace FileRead

variable {σ τ : Type} {s : Setting σ τ}

/-- A law of the reads of a file: in which worlds it holds and how these may go on, what it says of
a read that has not ended, and of the bytes that a read yields. -/
structure Law (s : Setting σ τ) where
  /-- Where it holds. -/
  sound : World σ → Prop
  /-- How a world may go on. -/
  onward : World σ → World σ → Prop
  /-- What it says of a read that has not ended. -/
  good : Wanted → World σ → FileRead τ → Prop
  /-- What it says of the bytes that are read. -/
  yields : Wanted → List UInt8 → Prop
  /-- It holds wherever a world goes on to. -/
  arrives {w w' : World σ} : onward w w' → sound w'
  /-- It holds of a read that begins. -/
  start (k : Wanted) (w : World σ) : good k w (FileRead.start k.offset k.len)
  /-- It goes on to hold. -/
  later {k : Wanted} {w w' : World σ} {r : FileRead τ} : good k w r → onward w w' → good k w' r
  /-- A turn keeps it. -/
  turn {k : Wanted} {w w' : World σ} {r : FileRead τ}
    {t : Turn (FileRead τ) (Except Failure (List UInt8))} : sound w → good k w r →
    r.step s w = (t, w') → sound w' ∧ (∀ r', t.next? = some r' → good k w' r') ∧
      ∀ bytes, t = .done (.ok bytes) → yields k bytes
  /-- So does dropping a read. -/
  dropped {w : World σ} (r : FileRead τ) : sound w → sound (r.drop s w)

/-- Over every transport, a read yields as many bytes as are wanted and there. -/
def Law.counts (s : Setting σ τ) : Law s where
  sound _ := True
  onward _ _ := True
  good k _ r := r.Counted s k
  yields k bytes := bytes.length = available s.size k.offset k.len
  arrives _ := trivial
  start k _ := counted_start s k
  later hr _ := hr
  turn _ hr hstep := by
    refine ⟨trivial, fun r' hr' => hr.step hstep hr', ?_⟩
    rintro bytes rfl
    exact hr.length_eq hstep
  dropped _ _ := trivial

/-- Over a transport that serves an object, a read yields bytes of the object. -/
def Law.serves {shift : σ → σ → Prop} {data : List UInt8} (v : Service s.net shift data)
    (hsize : s.size = data.length) : Law s where
  sound w := w.Sound v
  onward w w' := w.Onward v w'
  good k w r := r.Sound v k w
  yields k bytes := k.Met data bytes
  arrives h := h.sound
  start := sound_start
  later := Sound.onward
  turn hw hr hstep :=
    have hk := sound_step hsize hw hr hstep
    ⟨hk.world.sound, hk.next, hk.done⟩
  dropped r hw := (onward_drop hw r).sound

/-- By a law, a read below the end yields as many bytes as are wanted and there, and these are bytes
that `holds` at the position. -/
def Law.Grants (L : Law s) (holds : Nat → List UInt8 → Prop) : Prop :=
  ∀ k bytes, k.offset < s.size → L.yields k bytes →
    bytes.length = min k.len (s.size - k.offset) ∧ holds k.offset bytes

theorem Law.counts_grants (s : Setting σ τ) : (counts s).Grants fun _ _ => True :=
  fun _ _ _ hlength => ⟨hlength, trivial⟩

theorem Law.serves_grants {shift : σ → σ → Prop} {data : List UInt8}
    (v : Service s.net shift data) (hsize : s.size = data.length) :
    (serves v hsize).Grants (Cursor.OfObject data) := by
  intro k bytes _ hmet
  refine ⟨hsize ▸ hmet.length_eq, ?_⟩
  rw [Cursor.OfObject, slice, Nat.add_sub_cancel_left]
  exact List.prefix_iff_eq_take.1 hmet.bytes

end FileRead

/-! ### Calls of a reader -/

namespace Session

variable {σ τ : Type} {s : Setting σ τ} {reader : Nat} {x x' x₀ : Session σ}

/-- What a reader does on request. -/
def job (s : Setting σ τ) (reader : Nat) :
    Cursor.Request → Job (Session σ) (Task τ) (Reply σ)
  | .read len => readerRead s reader len
  | .seek target _ => readerSeek s reader target

/-- A session in which a reader is used, and which goes on as `onward` says besides: the calls that
have ended, the latest first, the call that has not, and what the session is then. -/
inductive History (s : Setting σ τ) (onward : World σ → World σ → Prop) (reader : Nat)
    (x₀ : Session σ) : List (Cursor.Call σ) →
      Option (Cursor.Request × Job (Session σ) (Task τ) (Reply σ)) → Session σ → Prop
  /-- Nobody has called. -/
  | nil : History s onward reader x₀ [] none x₀
  /-- Something else happens; nobody else moves the reader. -/
  | meanwhile {log : List (Cursor.Call σ)}
      {call : Option (Cursor.Request × Job (Session σ) (Task τ) (Reply σ))} {x x' : Session σ}
      (h : History s onward reader x₀ log call x) (hworld : onward x.world x'.world)
      (hposition : x'.position reader = x.position reader) :
      History s onward reader x₀ log call x'
  /-- Somebody calls. -/
  | calls {log : List (Cursor.Call σ)} {x : Session σ} (request : Cursor.Request)
      (h : History s onward reader x₀ log none x) :
      History s onward reader x₀ log (some (request, job s reader request)) x
  /-- The call takes a turn and goes on. -/
  | turns {log : List (Cursor.Call σ)} {request : Cursor.Request}
      {j j' : Job (Session σ) (Task τ) (Reply σ)} {x x' : Session σ}
      {t : Turn (Job (Session σ) (Task τ) (Reply σ)) (Reply σ)}
      (h : History s onward reader x₀ log (some (request, j)) x)
      (hstep : j.step (actor s) x = (t, x')) (ht : t.next? = some j') :
      History s onward reader x₀ log (some (request, j')) x'
  /-- The call takes its last turn. -/
  | ends {log : List (Cursor.Call σ)} {request : Cursor.Request}
      {j : Job (Session σ) (Task τ) (Reply σ)} {x x' : Session σ} {reply : Reply σ}
      (h : History s onward reader x₀ log (some (request, j)) x)
      (hstep : j.step (actor s) x = (.done reply, x')) :
      History s onward reader x₀ ((request, some reply) :: log) none x'
  /-- The call is dropped. -/
  | drops {log : List (Cursor.Call σ)} {request : Cursor.Request}
      {j : Job (Session σ) (Task τ) (Reply σ)} {x : Session σ}
      (h : History s onward reader x₀ log (some (request, j)) x) :
      History s onward reader x₀ ((request, none) :: log) none (j.drop (actor s) x)

/-- Where a call stands that has not ended. -/
inductive Stands (L : FileRead.Law s) (reader : Nat) (x : Session σ) :
    Cursor.Request → Job (Session σ) (Task τ) (Reply σ) → Prop
  /-- It has not begun. -/
  | unbegun (request : Cursor.Request) : Stands L reader x request (job s reader request)
  /-- It reads. -/
  | reads {len : Nat} {r : FileRead τ} (hlt : x.position reader < s.size)
      (hr : L.good ⟨x.position reader, len⟩ x.world r) :
      Stands L reader x (.read len) (.going ⟨some reader, r⟩)

/-- What a turn of a call comes to. -/
structure Leads (L : FileRead.Law s) (holds : Nat → List UInt8 → Prop) (reader : Nat)
    (x : Session σ) (request : Cursor.Request)
    (t : Turn (Job (Session σ) (Task τ) (Reply σ)) (Reply σ)) (x' : Session σ) : Prop where
  /-- The law goes on to hold. -/
  sound : L.sound x'.world
  /-- The reader stays as long as the call goes on. -/
  next : ∀ j, t.next? = some j → x'.position reader = x.position reader ∧
    Stands L reader x' request j
  /-- In the end it has taken a step of a cursor. -/
  done : ∀ reply, t = .done reply → Cursor.Step s.size holds (x.position reader)
    (request, some reply) (x'.position reader)

section

variable {L : FileRead.Law s} {holds : Nat → List UInt8 → Prop} {request : Cursor.Request}
  {j : Job (Session σ) (Task τ) (Reply σ)}
  {t : Turn (Job (Session σ) (Task τ) (Reply σ)) (Reply σ)} {log : List (Cursor.Call σ)}
  {call : Option (Cursor.Request × Job (Session σ) (Task τ) (Reply σ))}

theorem Stands.meanwhile (h : Stands L reader x request j) (hworld : L.onward x.world x'.world)
    (hposition : x'.position reader = x.position reader) : Stands L reader x' request j := by
  cases h with
  | unbegun => exact .unbegun request
  | reads hlt hr =>
    rw [← hposition] at hlt hr
    exact .reads hlt (L.later hr hworld)

theorem leads_of_next (hw : L.sound x'.world) (ht : t.next? = some j)
    (hposition : x'.position reader = x.position reader) (hj : Stands L reader x' request j) :
    Leads L holds reader x request t x' := by
  refine ⟨hw, fun j' hj' => ?_, ?_⟩
  · rw [ht] at hj'
    cases hj'
    exact ⟨hposition, hj⟩
  · rintro reply rfl
    cases ht

theorem leads_of_done {reply : Reply σ} (hw : L.sound x'.world)
    (hs : Cursor.Step s.size holds (x.position reader) (request, some reply)
      (x'.position reader)) : Leads L holds reader x request (.done reply) x' := by
  refine ⟨hw, fun j hj => ?_, fun reply' hreply => ?_⟩
  · cases hj
  · cases hreply
    exact hs

theorem step_read (s : Setting σ τ) (reader len : Nat) (x : Session σ) :
    (job s reader (.read len)).step (actor s) x =
      if s.size ≤ x.position reader then
        (.done (.readerBytes (.ok []) (x.position reader)),
          x.moveReader reader (x.position reader))
      else (.moved (.going ⟨some reader, FileRead.start (x.position reader) len⟩), x) := by
  rw [job, readerRead, step_byReader, Reader.read]
  by_cases h : s.size ≤ x.position reader
  · rw [if_pos h, if_pos h]
    rfl
  · rw [if_neg h, if_neg h]

theorem step_seek (s : Setting σ τ) (reader : Nat) (target : SeekFrom) (fits : target.Fits)
    (x : Session σ) :
    (job s reader (.seek target fits)).step (actor s) x =
      match Reader.seek s.size (x.position reader) target with
      | .ok position => (.done (.readerMoved (.ok position) position), x.moveReader reader position)
      | .error f => (.done (.readerMoved (.error f) (x.position reader)), x) := by
  simp only [job, readerSeek, Job.atOnce, Job.step]
  cases Reader.seek s.size (x.position reader) target <;> rfl

theorem leads_of_unbegun (hw : L.sound x.world)
    (hstep : (job s reader request).step (actor s) x = (t, x')) :
    Leads L holds reader x request t x' := by
  cases request with
  | read len =>
    rw [step_read] at hstep
    split at hstep <;> cases hstep
    · rename_i hle
      refine leads_of_done hw ?_
      rw [position_moveReader]
      exact .atEnd hle
    · rename_i hlt
      exact leads_of_next hw rfl rfl (.reads (Nat.lt_of_not_le hlt) (L.start ⟨_, len⟩ x.world))
  | seek target fits =>
    rw [step_seek] at hstep
    have hdecides := Reader.seek_decides s.size (x.position reader) fits
    generalize Reader.seek s.size (x.position reader) target = d at hdecides hstep
    cases hdecides with
    | moves haim hlt =>
      cases hstep
      refine leads_of_done hw ?_
      rw [position_moveReader]
      exact .moves haim hlt
    | stays haim =>
      cases hstep
      exact leads_of_done hw (.stays haim)

/-- A read that is under way moves the reader when it ends, past what it has read. -/
theorem leads_of_reading {len : Nat} {r : FileRead τ} (hL : L.Grants holds) (hw : L.sound x.world)
    (hlt : x.position reader < s.size) (hr : L.good ⟨x.position reader, len⟩ x.world r)
    (hstep : Job.step (actor s) (.going ⟨some reader, r⟩) x = (t, x')) :
    Leads L holds reader x (.read len) t x' := by
  have hturn : Job.step (actor s) (.going ⟨some reader, r⟩) x =
      (((step s ⟨some reader, r⟩ x).1).map .going id, (step s ⟨some reader, r⟩ x).2) := rfl
  rcases hread : r.step s x.world with ⟨tr, w⟩
  obtain ⟨hsound, hnext, hdone⟩ := L.turn hw hr hread
  rw [hturn, step_eq, hread] at hstep
  cases tr with
  | moved r' | waits r' =>
    cases hstep
    exact leads_of_next hsound rfl rfl (.reads hlt (hnext r' rfl))
  | done b =>
    cases hstep
    refine leads_of_done hsound ?_
    simp only [readerDone, position_moveReader]
    cases b with
    | error f => exact .fails hlt f
    | ok bytes =>
      obtain ⟨hlength, hbytes⟩ := hL _ _ hlt (hdone bytes rfl)
      exact .reads hlt hlength hbytes

/-- **A turn of a call either goes on and leaves the reader where it is, or ends with a step of a
cursor.** -/
theorem Stands.turn (hL : L.Grants holds) (hw : L.sound x.world)
    (h : Stands L reader x request j) (hstep : j.step (actor s) x = (t, x')) :
    Leads L holds reader x request t x' := by
  cases h with
  | unbegun => exact leads_of_unbegun hw hstep
  | reads hlt hr => exact leads_of_reading hL hw hlt hr hstep

theorem Stands.drop (hw : L.sound x.world) (h : Stands L reader x request j) :
    L.sound (j.drop (actor s) x).world ∧
      (j.drop (actor s) x).position reader = x.position reader := by
  cases h with
  | unbegun request => cases request <;> exact ⟨hw, rfl⟩
  | reads => exact ⟨L.dropped _ hw, rfl⟩

/-- **A history of calls is a path of a cursor.** -/
theorem History.path (hL : L.Grants holds) (hw : L.sound x₀.world)
    (h : History s L.onward reader x₀ log call x) :
    L.sound x.world ∧
      Cursor.Path s.size holds (x₀.position reader) log (x.position reader) ∧
      ∀ request j, call = some (request, j) → Stands L reader x request j := by
  induction h with
  | nil =>
    refine ⟨hw, .nil, fun _ _ hc => ?_⟩
    cases hc
  | meanwhile h hworld hposition ih =>
    obtain ⟨-, hpath, hcall⟩ := ih
    rw [hposition]
    exact ⟨L.arrives hworld, hpath, fun _ _ hc => (hcall _ _ hc).meanwhile hworld hposition⟩
  | calls request h ih =>
    obtain ⟨hsound, hpath, -⟩ := ih
    refine ⟨hsound, hpath, fun _ _ hc => ?_⟩
    cases hc
    exact .unbegun request
  | turns h hstep ht ih =>
    obtain ⟨hsound, hpath, hcall⟩ := ih
    have hleads := (hcall _ _ rfl).turn hL hsound hstep
    obtain ⟨hposition, hstands⟩ := hleads.next _ ht
    refine ⟨hleads.sound, hposition ▸ hpath, fun _ _ hc => ?_⟩
    cases hc
    exact hstands
  | ends h hstep ih =>
    obtain ⟨hsound, hpath, hcall⟩ := ih
    have hleads := (hcall _ _ rfl).turn hL hsound hstep
    refine ⟨hleads.sound, hpath.snoc (hleads.done _ rfl), fun _ _ hc => ?_⟩
    cases hc
  | drops h ih =>
    obtain ⟨hsound, hpath, hcall⟩ := ih
    obtain ⟨hsound', hposition⟩ := (hcall _ _ rfl).drop hsound
    refine ⟨hsound', ?_, fun _ _ hc => ?_⟩
    · rw [hposition]
      exact hpath.snoc (.dropped _)
    · cases hc

theorem step_of_needsNone {request : Cursor.Request}
    (h : request.NeedsNone s.size (x.position reader)) :
    ∃ reply x', (job s reader request).step (actor s) x = (.done reply, x') ∧
      x'.world = x.world := by
  cases request with
  | read len => exact ⟨_, _, (step_read s reader len x).trans (if_pos h), rfl⟩
  | seek target fits =>
    rw [step_seek]
    cases Reader.seek s.size (x.position reader) target <;> exact ⟨_, _, rfl, rfl⟩

end

/-- **A reader is a cursor.**  A read at the end of the file or past it and a move are answered in
their first turn, which leaves the file alone.

Over whatever transport, whatever becomes of the reads beneath and whatever happens to the file
meanwhile, as long as nobody else moves the reader: what its calls come to is what the steps of a
cursor are, and its position stays one of 64 bits.

If the transport serves an object, then the bytes that are read are those of the object at the
position, and reads that follow one another yield slices that do, whatever has failed or was dropped
in between. -/
theorem reader_is_cursor (s : Setting σ τ) (reader : Nat) (hsize : s.size < positionLimit) :
    (∀ x request, request.NeedsNone s.size (x.position reader) →
      ∃ reply x', (job s reader request).step (actor s) x = (.done reply, x') ∧
        x'.world = x.world ∧
        Cursor.Step s.size (fun _ _ => True) (x.position reader) (request, some reply)
          (x'.position reader)) ∧
    (∀ x₀ log call x, x₀.position reader < positionLimit →
      History s (fun _ _ => True) reader x₀ log call x →
      x.position reader < positionLimit ∧
        Cursor.Path s.size (fun _ _ => True) (x₀.position reader) log (x.position reader)) ∧
    ∀ (shift : σ → σ → Prop) (data : List UInt8) (v : Service s.net shift data),
      s.size = data.length → ∀ x₀ log call x, x₀.world.Sound v →
        History s (fun w w' => w.Onward v w') reader x₀ log call x →
        Cursor.Path s.size (Cursor.OfObject data) (x₀.position reader) log (x.position reader) ∧
          ∀ later reads earlier, log = later ++ (reads ++ earlier) →
            (∀ call ∈ reads, Cursor.moved call = false) →
            ∃ p p', Cursor.Path s.size (Cursor.OfObject data) (x₀.position reader) earlier p ∧
              Cursor.Path s.size (Cursor.OfObject data) p' later (x.position reader) ∧
              p ≤ p' ∧ Cursor.bytes reads = slice data p p' := by
  refine ⟨fun x request hrequest => ?_, fun x₀ log call x hx₀ h => ?_,
    fun shift data v hdata x₀ log call x hw h => ?_⟩
  · obtain ⟨reply, x', hstep, hworld⟩ := step_of_needsNone hrequest
    have hleads := (Stands.unbegun request).turn (FileRead.Law.counts_grants s) trivial hstep
    exact ⟨reply, x', hstep, hworld, hleads.done reply rfl⟩
  · obtain ⟨-, hpath, -⟩ := History.path (FileRead.Law.counts_grants s) trivial h
    exact ⟨hpath.lt hsize hx₀, hpath⟩
  · obtain ⟨-, hpath, -⟩ := History.path (FileRead.Law.serves_grants v hdata) hw h
    refine ⟨hpath, ?_⟩
    rintro later reads earlier rfl hmoved
    obtain ⟨p', hfirst, hlater⟩ := hpath.exists_of_append
    obtain ⟨p, hearlier, hreads⟩ := hfirst.exists_of_append
    obtain ⟨hle, hbytes⟩ := hreads.bytes_eq_slice hmoved
    exact ⟨p, p', hearlier, hlater, hle, hbytes⟩

/-! ### A reader of five bytes -/

theorem History.alone {onward : World σ → World σ → Prop} {log : List (Cursor.Call σ)}
    (h : History s onward reader x₀ log none x) (request : Cursor.Request) (n : Nat) :
    (∀ j, (alone s (job s reader request) x n).2.1.next? = some j →
      History s onward reader x₀ log (some (request, j))
        (alone s (job s reader request) x n).2.2) ∧
    ∀ reply, (alone s (job s reader request) x n).2.1 = .done reply →
      History s onward reader x₀ ((request, some reply) :: log) none
        (alone s (job s reader request) x n).2.2 := by
  induction n with
  | zero =>
    refine ⟨fun j hj => ?_, fun reply hreply => ?_⟩
    · cases hj
      exact h.calls request
    · cases hreply
  | succ n ih =>
    rw [Session.alone]
    split
    · rename_i j hj
      have hcall := ih.1 j hj
      exact ⟨fun j' hj' => hcall.turns rfl hj',
        fun reply hreply => hcall.ends (Prod.ext hreply rfl)⟩
    · exact ih

/-- A session with the five bytes. -/
def withFiveBytes : Session Unit := ⟨.fresh () "https://example.com/a.bin" none, []⟩

/-- A transport that serves the five bytes. -/
def fiveBytesService : Service openedFiveBytes.net (fun _ _ => False) [10, 11, 12, 13, 14] :=
  Transport.promptService _ _

/-- Calls of a reader of the five bytes, the latest first: two bytes are read, the reader is moved
back too far, a read is dropped, the others are read, and there are no more. -/
def callsOfFive : List (Cursor.Call Unit) :=
  [(.read 1, some (.readerBytes (.ok []) 5)),
    (.read 9, some (.readerBytes (.ok [12, 13, 14]) 5)), (.read 9, none),
    (.seek (.current (-3)) trivial, some (.readerMoved (.error .negativeSeek) 2)),
    (.read 2, some (.readerBytes (.ok [10, 11]) 2))]

theorem history_callsOfFive : ∃ x, History openedFiveBytes
    (fun w w' => w.Onward fiveBytesService w') 0 withFiveBytes callsOfFive none x := by
  have h₀ : History openedFiveBytes (fun w w' => w.Onward fiveBytesService w') 0 withFiveBytes []
    none withFiveBytes := .nil
  have h₁ := (h₀.alone (.read 2) 20).2 _ rfl
  have h₂ := (h₁.alone (.seek (.current (-3)) trivial) 1).2 _ rfl
  have h₃ := ((h₂.alone (.read 9) 3).1 _ rfl).drops
  have h₄ := (h₃.alone (.read 9) 30).2 _ rfl
  exact ⟨_, (h₄.alone (.read 1) 1).2 _ rfl⟩

/-- A reader of the five bytes reads each of them once. -/
theorem reader_is_cursor_of_five : ∃ p,
    Cursor.Path 5 (Cursor.OfObject [10, 11, 12, 13, 14]) 0 callsOfFive p ∧
      Cursor.bytes callsOfFive = slice [10, 11, 12, 13, 14] 0 p ∧
      Cursor.bytes callsOfFive = [10, 11, 12, 13, 14] := by
  obtain ⟨x, h⟩ := history_callsOfFive
  have hw : World.Sound (s := openedFiveBytes) fiveBytesService withFiveBytes.world :=
    ⟨trivial, nofun⟩
  obtain ⟨-, -, hserves⟩ := reader_is_cursor openedFiveBytes 0 (by decide)
  obtain ⟨hpath, hslices⟩ := hserves _ _ fiveBytesService rfl _ _ _ _ hw h
  -- no call before these and none after them
  obtain ⟨p, p', hearlier, hlater, -, hbytes⟩ :=
    hslices [] callsOfFive [] (List.append_nil _).symm (by decide)
  cases hearlier
  cases hlater
  exact ⟨_, hpath, hbytes, rfl⟩

end Session

end RemoteFile
