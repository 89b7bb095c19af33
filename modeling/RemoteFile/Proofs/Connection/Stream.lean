import RemoteFile.Proofs.Connection.Faithful

/-!
# What the calls to a connection make of its response

A response may be cut into chunks in any way, and between any two of them it may fail or keep its
reader waiting. Whatever calls are made to a connection, and whatever comes of them, it keeps track
of the response: the bytes that have arrived are those that were used up, followed by the ones that
are pending, and the cursor says how many were used up. So a call that succeeds yields the bytes of
the response at its position, and one that fails neither loses nor repeats a byte.

The turns of a call may lie in any worlds, so that what is said here holds whatever others do
meanwhile.

Main statements:

* `Reading.step_goes` : what a turn of a read can come to.
* `Reading.Course.underway` : what a read knows of its course while it is under way.
* `Connection.calls_follow_response` : what holds after any calls, and what the next one comes to.
-/

namespace RemoteFile

/-! ### Responses -/

/-- The part keeps a reader waiting. -/
def Part.isWait : Part → Bool
  | .pause _ | .pauseUntil _ | .silence => true
  | .chunk _ | .failure _ => false

namespace Body

/-- The response fails somewhere. -/
def Breaks (b : Body) (f : Failure) : Prop := .failure f ∈ b

/-- The response keeps a reader waiting somewhere. -/
def Stalls (b : Body) : Prop := ∃ p ∈ b, p.isWait = true

/-- What may be left of a response: no failure and no wait that was not in it before. -/
structure Leaves (b b' : Body) : Prop where
  /-- Its failures. -/
  breaks : ∀ f, b'.Breaks f → b.Breaks f
  /-- Its waits. -/
  stalls : b'.Stalls → b.Stalls

theorem Leaves.refl (b : Body) : b.Leaves b := ⟨fun _ => id, id⟩

theorem Leaves.trans {b b' b'' : Body} (h : b.Leaves b') (h' : b'.Leaves b'') : b.Leaves b'' :=
  ⟨fun f hf => h.breaks f (h'.breaks f hf), fun hs => h.stalls (h'.stalls hs)⟩

theorem leaves_cons (p : Part) (b : Body) : Leaves (p :: b) b :=
  ⟨fun _ => List.mem_cons_of_mem _, fun ⟨q, hq, hw⟩ => ⟨q, List.mem_cons_of_mem _ hq, hw⟩⟩

theorem leaves_wait {p q : Part} (hp : p.isWait = true) (hq : ∀ f, q ≠ .failure f) (b : Body) :
    Leaves (p :: b) (q :: b) where
  breaks f hf := by
    rcases List.mem_cons.1 hf with heq | hf
    · exact absurd heq.symm (hq f)
    · exact List.mem_cons_of_mem _ hf
  stalls _ := ⟨p, List.mem_cons_self, hp⟩

variable {now deadline : Nat}

theorem leaves_pull (now deadline : Nat) (b : Body) : b.Leaves (b.pull now deadline).2 := by
  fun_induction pull now deadline b with
  | case1 => exact .refl _
  | case2 | case3 => exact leaves_cons _ _
  | case4 rest ih => exact (leaves_cons _ _).trans ih
  | case5 =>
    refine leaves_wait rfl (fun f h => ?_) _
    cases h
  | case6 time rest _ ih => exact (leaves_cons _ _).trans ih
  | case7 | case8 => exact .refl _

theorem held_ne_failed (now deadline due : Nat) (f : Failure) :
    held now deadline due ≠ .failed f := by
  unfold held
  split <;> simp

theorem held_ne_ended (now deadline due : Nat) : held now deadline due ≠ .ended := by
  unfold held
  split <;> simp

theorem breaks_of_pull {b : Body} {f : Failure} (h : (b.pull now deadline).1 = .failed f) :
    b.Breaks f := by
  fun_induction pull now deadline b with
  | case1 | case2 => cases h
  | case3 g rest =>
    cases h
    exact List.mem_cons_self
  | case4 rest ih => exact (leaves_cons _ _).breaks f (ih h)
  | case5 => exact absurd h (held_ne_failed _ _ _ _)
  | case6 time rest _ ih => exact (leaves_cons _ _).breaks f (ih h)
  | case7 | case8 => exact absurd h (held_ne_failed _ _ _ _)

theorem stalls_of_pull {b : Body} (h : (b.pull now deadline).1 = .late) : b.Stalls := by
  fun_induction pull now deadline b with
  | case1 | case2 | case3 => cases h
  | case4 rest | case5 | case6 | case7 | case8 => exact ⟨_, List.mem_cons_self, rfl⟩

theorem payload_of_pull {b b' : Body} {pull : Pull} (h : b.pull now deadline = (pull, b'))
    (hp : ∀ bytes, pull ≠ .chunk bytes) : payload b' = b.payload := by
  have hpull : (∀ bytes, (b.pull now deadline).1 ≠ .chunk bytes) →
      payload (b.pull now deadline).2 = b.payload := payload_pull
  rw [h] at hpull
  exact hpull hp

theorem rest_of_pull_ended {b : Body} (h : (b.pull now deadline).1 = .ended) :
    (b.pull now deadline).2 = [] := by
  fun_induction pull now deadline b with
  | case1 => rfl
  | case2 | case3 => cases h
  | case4 rest ih => exact ih h
  | case5 => exact absurd h (held_ne_ended _ _ _)
  | case6 time rest _ ih => exact ih h
  | case7 | case8 => exact absurd h (held_ne_ended _ _ _)

end Body

/-! ### Keeping track -/

/-- A connection that was opened from `start` up to `stop` keeps track of the bytes of its response:
the ones that have arrived are those that were used up and the pending ones, and the cursor stands
after those that were used up. -/
structure Connection.Tracks (start stop : Nat) (payload : List UInt8) (c : Connection) : Prop where
  /-- The bytes that have arrived, and those that have not. -/
  used : ∃ used, payload = (used ++ c.pending) ++ c.body.payload ∧ c.cursor = start + used.length
  /-- The end stays. -/
  fixed : c.stop = stop
  /-- The cursor does not pass it. -/
  inside : c.cursor ≤ stop

namespace Connection.Tracks

variable {start stop : Nat} {payload : List UInt8} {c c' : Connection}

theorem opened (id : Nat) (body : Body) (now : Nat) (h : start ≤ stop) :
    (Connection.opened id start stop body now).Tracks start stop body.payload :=
  ⟨⟨[], rfl, rfl⟩, rfl, h⟩

theorem renew (h : c.Tracks start stop payload) (hcursor : c'.cursor = c.cursor)
    (hstop : c'.stop = c.stop)
    (hbytes : c'.pending ++ c'.body.payload = c.pending ++ c.body.payload) :
    c'.Tracks start stop payload := by
  obtain ⟨used, hpayload, hused⟩ := h.used
  refine ⟨⟨used, ?_, hcursor.trans hused⟩, hstop.trans h.fixed, hcursor.trans_le h.inside⟩
  rw [List.append_assoc, hbytes, ← List.append_assoc, hpayload]

theorem start_le (h : c.Tracks start stop payload) : start ≤ c.cursor := by
  obtain ⟨used, -, hused⟩ := h.used
  omega

theorem rest (h : c.Tracks start stop payload) :
    c.pending ++ c.body.payload = payload.drop (c.cursor - start) := by
  obtain ⟨used, hpayload, hused⟩ := h.used
  rw [hused, Nat.add_sub_cancel_left, hpayload, List.append_assoc, List.drop_left]

theorem cursor_le (h : c.Tracks start stop payload) : c.cursor ≤ start + payload.length := by
  obtain ⟨used, hpayload, hused⟩ := h.used
  rw [hused, hpayload, List.length_append, List.length_append]
  omega

theorem pending (h : c.Tracks start stop payload) :
    c.pending <+: payload.drop (c.cursor - start) :=
  h.rest ▸ List.prefix_append _ _

theorem cursor (h : c.Tracks start stop payload) (hp : c.pending = [])
    (hb : c.body.payload = []) : c.cursor = start + payload.length := by
  obtain ⟨used, hpayload, hused⟩ := h.used
  rw [hp, hb, List.append_nil, List.append_nil] at hpayload
  rw [hpayload, hused]

end Connection.Tracks

namespace Reading

variable {σ : Type} {idle : Duration} {start stop offset len : Nat} {payload : List UInt8}
  {r r' : Reading} {w w' : World σ} {c c' : Connection}
  {t : Turn Reading (Except Failure (List UInt8) × Connection)}

/-- A read that is under way on a connection that keeps track of its response. -/
structure Steady (start stop : Nat) (payload : List UInt8) (offset len : Nat) (r : Reading) :
    Prop extends Placed offset len r where
  /-- The connection keeps track. -/
  conn : r.conn.Tracks start stop payload
  /-- The bytes from the position on are copied. -/
  copied : r.bytes <+: payload.drop (offset - start)

namespace Steady

theorem begun (hc : c.Tracks start stop payload) (hle : c.cursor ≤ offset) :
    (begun c offset len).Steady start stop payload offset len :=
  ⟨.begun hle, hc, List.nil_prefix⟩

theorem inside (h : r.Steady start stop payload offset len) (hstop : offset < stop) :
    r.conn.cursor + r.ahead + r.left ≤ stop := by
  have hplace := h.place
  have hleft := h.left
  have hend := h.conn.fixed
  omega

theorem consume (h : r.Steady start stop payload offset len) (hstart : start ≤ offset)
    (hstop : offset < stop) : r.consume.Steady start stop payload offset len where
  toPlaced := h.toPlaced.consume
  conn := by
    obtain ⟨used, hpayload, hused⟩ := h.conn.used
    have hle := r.dropped_add_taken_le
    refine ⟨⟨used ++ r.conn.pending.take (r.dropped + r.taken.length), ?_, ?_⟩, h.conn.fixed, ?_⟩
    · change payload = (_ ++ r.consume.conn.pending) ++ r.conn.body.payload
      rw [pending_consume, List.append_assoc used, List.take_append_drop]
      exact hpayload
    · change r.conn.cursor + r.dropped + r.taken.length = _
      rw [List.length_append, List.length_take, Nat.min_eq_left hle]
      omega
    · have hinside := h.inside hstop
      have hdropped := r.dropped_le
      have htaken := r.length_taken_le
      change r.conn.cursor + r.dropped + r.taken.length ≤ stop
      omega
  copied := h.toPlaced.copied h.conn.start_le hstart h.conn.pending h.copied

theorem renew {deadline : Option Nat} (h : r.Steady start stop payload offset len)
    (hcursor : c.cursor = r.conn.cursor) (hstop : c.stop = r.conn.stop)
    (hbytes : c.pending ++ c.body.payload = r.conn.pending ++ r.conn.body.payload) :
    Steady start stop payload offset len { r with conn := c, deadline := deadline } where
  place := by
    rw [hcursor]
    exact h.place
  ahead := h.ahead
  left := by
    rw [hstop]
    exact h.left
  conn := h.conn.renew hcursor hstop hbytes
  copied := h.copied

end Steady

/-! ### Turns -/

/-- What a turn of a read can come to, once the bytes that are there are used up. -/
inductive Goes (idle : Duration) (r : Reading) (w : World σ) :
    Turn Reading (Except Failure (List UInt8) × Connection) → Prop
  /-- All bytes are there. -/
  | complete (h : r.isComplete = true) : Goes idle r w (.done (.ok r.bytes, r.conn.touch w.now))
  /-- A chunk arrives. -/
  | arrived {deadline : Nat} {bytes : List UInt8} {body : Body} (h : r.isComplete = false)
      (hb : r.conn.body.pull w.now deadline = (.chunk bytes, body)) :
      Goes idle r w
        (.moved { r with conn := { r.conn with pending := bytes, body := body }, deadline := none })
  /-- Nothing does, so far. -/
  | waits {deadline wake : Nat} {body : Body}
      (hb : r.conn.body.pull w.now deadline = (.pending wake, body)) :
      Goes idle r w
        (.waits { r with conn := { r.conn with body := body }, deadline := some deadline }
          (some wake))
  /-- The response fails. -/
  | broken {deadline : Nat} {f : Failure} {body : Body}
      (hb : r.conn.body.pull w.now deadline = (.failed f, body)) :
      Goes idle r w (.done (.error f, { r.conn with body := body }))
  /-- The response ends too early. -/
  | ended {deadline : Nat} {body : Body} (h : r.isComplete = false)
      (hb : r.conn.body.pull w.now deadline = (.ended, body)) :
      Goes idle r w
        (.done (.error (.shortRead r.conn.stop r.conn.cursor), { r.conn with body := body }))
  /-- Nothing has arrived within the limit. -/
  | late {deadline : Nat} {body : Body}
      (hb : r.conn.body.pull w.now deadline = (.late, body)) :
      Goes idle r w (.done (.error (.idleTimeout idle), { r.conn with body := body }))

theorem now_noteSkip (r : Reading) (w : World σ) : (r.noteSkip w).now = w.now :=
  (beside_noteSkip r w).now

theorem step_goes (idle : Duration) (r : Reading) (w : World σ) :
    Goes idle r.consume w (r.step idle w).1 := by
  simp only [step, now_noteSkip]
  cases hc : r.consume.isComplete with
  | true => exact .complete hc
  | false =>
    simp only [Bool.false_eq_true, if_false, receive]
    generalize r.consume.deadline.getD (idle.timerFrom w.now) = deadline
    rcases hb : r.consume.conn.body.pull w.now deadline with ⟨pull, body⟩
    cases pull with
    | chunk bytes => exact .arrived hc hb
    | failed f => exact .broken hb
    | ended => exact .ended hc hb
    | late => exact .late hb
    | pending wake => exact .waits hb

theorem discarded_step (idle : Duration) (r : Reading) (w : World σ) :
    (r.step idle w).2.counters.bytesDiscarded =
      (w.counters.bytesDiscarded + r.dropped) % counterLimit := by
  have hskip : (r.noteSkip w).counters.bytesDiscarded =
      (w.counters.bytesDiscarded + r.dropped) % counterLimit := by
    simp only [noteSkip]
    split <;> rfl
  have hturn : (r.step idle w).2 = r.noteSkip w := by
    simp only [step]
    split
    · rfl
    · split <;> rfl
  rw [hturn, hskip]

/-! ### The course of a read -/

/-- A read that takes a turn, and the world in which it does. -/
structure Moment (σ : Type) where
  /-- The read. -/
  reading : Reading
  /-- The world. -/
  world : World σ

/-- How much a turn adds to the count of dropped bytes, which starts again from zero when it is
full. -/
def Moment.discarded (idle : Duration) (m : Moment σ) : Nat :=
  ((m.reading.step idle m.world).2.counters.bytesDiscarded +
    (counterLimit - m.world.counters.bytesDiscarded % counterLimit)) % counterLimit

/-- How much all these turns add to it. -/
def discardedIn (idle : Duration) : List (Moment σ) → Nat
  | [] => 0
  | m :: ms => m.discarded idle + discardedIn idle ms

/-- The turns that a read has taken, the latest first, and what the latest one has come to. -/
inductive Course (idle : Duration) (r₀ : Reading) :
    List (Moment σ) → Turn Reading (Except Failure (List UInt8) × Connection) → Prop
  /-- The read is about to begin. -/
  | nil : Course idle r₀ [] (.moved r₀)
  /-- It takes one more turn, in any world. -/
  | snoc {ms : List (Moment σ)} {t : Turn Reading (Except Failure (List UInt8) × Connection)}
      {r : Reading} (h : Course idle r₀ ms t) (ht : t.next? = some r) (w : World σ) :
      Course idle r₀ (⟨r, w⟩ :: ms) (r.step idle w).1

theorem discarded_moment (h : r.dropped < counterLimit) :
    Moment.discarded idle ⟨r, w⟩ = r.dropped := by
  simp only [Moment.discarded, discarded_step, counterLimit, wordLimit] at h ⊢
  omega

/-- What a read knows of its course while it is under way: `c` is the connection that it began
with. -/
structure Underway (idle : Duration) (start stop : Nat) (payload : List UInt8) (offset len : Nat)
    (c : Connection) (ms : List (Moment σ)) (r : Reading) : Prop
    extends Steady start stop payload offset len r where
  /-- Bytes are dropped up to the position. -/
  discarded : discardedIn idle ms + r.ahead = offset - c.cursor
  /-- The response is what is left of the one before. -/
  leaves : c.body.Leaves r.conn.body

namespace Underway

variable {ms : List (Moment σ)}

theorem begun (hc : c.Tracks start stop payload) (hle : c.cursor ≤ offset) :
    Underway (σ := σ) idle start stop payload offset len c [] (begun c offset len) :=
  ⟨.begun hc hle, Nat.zero_add _, .refl _⟩

theorem discarded_turn (h : Underway idle start stop payload offset len c ms r)
    (hstop : offset < stop) (hlimit : stop < positionLimit) (w : World σ) :
    discardedIn idle (⟨r, w⟩ :: ms) + r.consume.ahead = offset - c.cursor := by
  have hinside := h.toSteady.inside hstop
  have hdropped := r.dropped_le
  have hbefore := h.discarded
  have hmoment : Moment.discarded idle ⟨r, w⟩ = r.dropped :=
    discarded_moment (Nat.lt_of_le_of_lt (by omega) hlimit)
  rw [discardedIn, hmoment]
  change _ + (r.ahead - r.dropped) = _
  omega

theorem turn (h : Underway idle start stop payload offset len c ms r) (hstart : start ≤ offset)
    (hstop : offset < stop) (hlimit : stop < positionLimit)
    (ht : (r.step idle w).1.next? = some r') :
    Underway idle start stop payload offset len c (⟨r, w⟩ :: ms) r' := by
  have hsteady := h.toSteady.consume hstart hstop
  have hdiscarded := h.discarded_turn hstop hlimit w
  have hgoes := step_goes idle r w
  generalize (r.step idle w).1 = t at hgoes ht
  cases hgoes with
  | complete | broken | ended | late => cases ht
  | @arrived deadline bytes body hc hb =>
    cases ht
    have hpull := Body.payload_pull_chunk (congrArg Prod.fst hb)
    have hleft := Body.leaves_pull w.now deadline r.consume.conn.body
    rw [hb] at hpull hleft
    refine ⟨hsteady.renew rfl rfl ?_, hdiscarded, h.leaves.trans hleft⟩
    rw [pending_of_not_isComplete hc, List.nil_append]
    exact hpull.symm
  | @waits deadline wake body hb =>
    cases ht
    have hpull := Body.payload_of_pull hb nofun
    have hleft := Body.leaves_pull w.now deadline r.consume.conn.body
    rw [hb] at hleft
    exact ⟨hsteady.renew rfl rfl (congrArg _ hpull), hdiscarded, h.leaves.trans hleft⟩

end Underway

/-- A read knows its course as long as it is under way. -/
theorem Course.underway {ms : List (Moment σ)} (hc : c.Tracks start stop payload)
    (hle : c.cursor ≤ offset) (hstop : offset < stop) (hlimit : stop < positionLimit)
    (h : Course idle (begun c offset len) ms t) (ht : t.next? = some r) :
    Underway idle start stop payload offset len c ms r := by
  induction h generalizing r with
  | nil =>
    cases ht
    exact .begun hc hle
  | snoc h hnext w ih => exact (ih hnext).turn (hc.start_le.trans hle) hstop hlimit ht

end Reading

/-! ### Calls -/

namespace Connection

/-- The answer that the bytes of a response give to a call for at most `len` bytes at `offset`:
those at the position, unless the response ends before the last one that is wanted. -/
def answer (start stop : Nat) (payload : List UInt8) (offset len : Nat) :
    Except Failure (List UInt8) :=
  let wanted := min len (stop - offset)
  if start + payload.length < offset + wanted then
    .error (.shortRead stop (start + payload.length))
  else .ok ((payload.drop (offset - start)).take wanted)

/-- Why a call fails that found the connection like `c` and left it like `c'`. -/
inductive Fails (idle : Duration) (c c' : Connection) : Failure → Prop
  /-- The response has failed. -/
  | broken {f : Failure} (h : c.body.Breaks f) : Fails idle c c' f
  /-- The response has kept the call waiting. -/
  | stalled (h : c.body.Stalls) : Fails idle c c' (.idleTimeout idle)
  /-- The response has ended, and all of it is used up. -/
  | ended (hp : c'.pending = []) (hb : c'.body = []) :
      Fails idle c c' (.shortRead c'.stop c'.cursor)

/-- What is to be expected of a call that asks for at most `len` bytes at `offset`, if the
connection can serve it. -/
structure Serves {σ : Type} (idle : Duration) (start stop : Nat) (payload : List UInt8)
    (offset len : Nat) (c : Connection) (ms : List (Reading.Moment σ))
    (b : Except Failure (List UInt8)) (c' : Connection) : Prop where
  /-- A call that succeeds copies the bytes at its position, as many as were wanted unless the
  connection ends before, leaves the cursor after the last one, and counts as dropped those before
  the first one. -/
  succeeds : ∀ bytes, b = .ok bytes →
    bytes.length = min len (stop - offset) ∧ bytes <+: payload.drop (offset - start) ∧
      c'.cursor = offset + bytes.length ∧ Reading.discardedIn idle ms = offset - c.cursor
  /-- There are few reasons for a call to fail. -/
  fails : ∀ f, b = .error f → Fails idle c c' f
  /-- Unless the response fails or keeps the call waiting, nothing matters but the bytes of the
  response: not how they are cut, nor what calls there were before. -/
  settled : (∃ f, b = .error f ∧ c.body.Breaks f) ∨
    (b = .error (.idleTimeout idle) ∧ c.body.Stalls) ∨ b = answer start stop payload offset len

/-- What becomes of a call: the turns that it takes, its result, and the connection as it is
then. -/
inductive Calls {σ : Type} (idle : Duration) (offset len : Nat) (c : Connection) :
    List (Reading.Moment σ) → Except Failure (List UInt8) → Connection → Prop
  /-- The call is refused. -/
  | refused {f : Failure} (h : Reading.start c offset len = .error f) :
      Calls idle offset len c [] (.error f) c
  /-- The call comes to an end. -/
  | ends {r : Reading} {ms : List (Reading.Moment σ)} {b : Except Failure (List UInt8)}
      {c' : Connection} (h : Reading.start c offset len = .ok r)
      (hr : Reading.Course idle r ms (.done (b, c'))) : Calls idle offset len c ms b c'

/-- The connections that one call after the other can lead to. -/
inductive Later (σ : Type) (c₀ : Connection) : Connection → Prop
  /-- No call has been made. -/
  | here : Later σ c₀ c₀
  /-- One more call has ended, well or badly. -/
  | called {c c' : Connection} {idle : Duration} {offset len : Nat} {ms : List (Reading.Moment σ)}
      {b : Except Failure (List UInt8)} (h : Later σ c₀ c) (hc : Calls idle offset len c ms b c') :
      Later σ c₀ c'
  /-- One more call was given up while it was under way. -/
  | abandoned {c : Connection} {r r' : Reading} {idle : Duration} {offset len : Nat}
      {ms : List (Reading.Moment σ)}
      {t : Turn Reading (Except Failure (List UInt8) × Connection)} (h : Later σ c₀ c)
      (hs : Reading.start c offset len = .ok r) (hr : Reading.Course idle r ms t)
      (ht : t.next? = some r') : Later σ c₀ r'.conn

variable {σ : Type} {idle : Duration} {start stop offset len : Nat} {payload : List UInt8}
  {c c' : Connection} {ms : List (Reading.Moment σ)} {b : Except Failure (List UInt8)}

theorem serves_of_complete {r : Reading} {w : World σ}
    (hsteady : r.Steady start stop payload offset len) (hcomplete : r.isComplete = true)
    (hdiscarded : Reading.discardedIn idle ms + r.ahead = offset - c.cursor) :
    Serves idle start stop payload offset len c ms (.ok r.bytes) (r.conn.touch w.now) := by
  simp only [Reading.isComplete, Bool.and_eq_true, beq_iff_eq] at hcomplete
  have hplace : r.conn.cursor = offset + r.bytes.length := by
    rw [← hsteady.place, hcomplete.1, Nat.add_zero]
  have hlength : r.bytes.length = min len (stop - offset) := by
    rw [← hsteady.conn.fixed, ← hsteady.left, hcomplete.2, Nat.add_zero]
  have hend := hsteady.conn.cursor_le
  refine ⟨fun bytes hb => ?_, fun f hf => ?_, .inr (.inr ?_)⟩
  · cases hb
    refine ⟨hlength, hsteady.copied, hplace, ?_⟩
    rw [← hdiscarded, hcomplete.1, Nat.add_zero]
  · cases hf
  · simp only [answer]
    rw [if_neg (by omega), ← hlength, ← List.prefix_iff_eq_take.1 hsteady.copied]

theorem serves_of_ended {r : Reading} (hsteady : r.Steady start stop payload offset len)
    (hcomplete : r.isComplete = false) (hp : r.conn.pending = []) (hb : r.conn.body.payload = []) :
    Serves idle start stop payload offset len c ms
      (.error (.shortRead r.conn.stop r.conn.cursor)) { r.conn with body := [] } := by
  refine ⟨fun bytes hbytes => ?_, fun f hf => ?_, .inr (.inr ?_)⟩
  · cases hbytes
  · cases hf
    exact .ended hp rfl
  · have hplace := hsteady.place
    have hleft := hsteady.left
    have hcursor := hsteady.conn.cursor hp hb
    rw [hsteady.conn.fixed] at hleft ⊢
    -- something is left to be dropped or to be copied
    have hmissing : r.ahead ≠ 0 ∨ r.left ≠ 0 := by
      simpa [Reading.isComplete, ← imp_iff_not_or] using hcomplete
    simp only [answer]
    rw [if_pos (by omega), hcursor]

/-- The last turn of a call leaves a connection that keeps track of its response, and an answer as
it was to be expected. -/
theorem serves_of_underway {r : Reading} {w : World σ}
    (h : Reading.Underway idle start stop payload offset len c ms r) (hstart : start ≤ offset)
    (hstop : offset < stop) (hlimit : stop < positionLimit)
    (ht : (r.step idle w).1 = .done (b, c')) :
    c'.Tracks start stop payload ∧
      Serves idle start stop payload offset len c (⟨r, w⟩ :: ms) b c' := by
  have hsteady := h.toSteady.consume hstart hstop
  have hgoes := Reading.step_goes idle r w
  rw [ht] at hgoes
  cases hgoes with
  | complete hcomplete =>
    exact ⟨hsteady.conn.renew rfl rfl rfl, serves_of_complete hsteady hcomplete
      (h.discarded_turn hstop hlimit w)⟩
  | @broken deadline f body hb =>
    have hpull := Body.payload_of_pull hb nofun
    have hbreaks := h.leaves.breaks f (Body.breaks_of_pull (congrArg Prod.fst hb))
    refine ⟨hsteady.conn.renew rfl rfl (congrArg _ hpull), fun bytes hbytes => ?_, fun g hg => ?_,
      .inl ⟨f, rfl, hbreaks⟩⟩
    · cases hbytes
    · cases hg
      exact .broken hbreaks
  | @ended deadline body hcomplete hb =>
    have hpull := Body.payload_of_pull hb nofun
    have hrest := Body.rest_of_pull_ended (congrArg Prod.fst hb)
    rw [hb] at hrest
    cases hrest
    exact ⟨hsteady.conn.renew rfl rfl (congrArg _ hpull), serves_of_ended hsteady hcomplete
      (Reading.pending_of_not_isComplete hcomplete) hpull.symm⟩
  | @late deadline body hb =>
    have hpull := Body.payload_of_pull hb nofun
    have hstalls := h.leaves.stalls (Body.stalls_of_pull (congrArg Prod.fst hb))
    refine ⟨hsteady.conn.renew rfl rfl (congrArg _ hpull), fun bytes hbytes => ?_, fun g hg => ?_,
      .inr (.inl ⟨rfl, hstalls⟩)⟩
    · cases hbytes
    · cases hg
      exact .stalled hstalls

theorem Calls.serves (hc : c.Tracks start stop payload) (hle : c.cursor ≤ offset)
    (hstop : offset < stop) (hlimit : stop < positionLimit)
    (h : Calls idle offset len c ms b c') :
    c'.Tracks start stop payload ∧ Serves idle start stop payload offset len c ms b c' := by
  have hstarts : Reading.start c offset len = .ok (Reading.begun c offset len) :=
    Reading.start_eq_ok_iff.2 ⟨hle, hc.fixed.symm ▸ hstop, rfl⟩
  cases h with
  | refused h =>
    rw [hstarts] at h
    cases h
  | ends h hr =>
    rw [hstarts] at h
    cases h
    generalize hturn : Turn.done (b, c') = t at hr
    cases hr with
    | nil => cases hturn
    | snoc hcourse hnext w =>
      exact serves_of_underway (hcourse.underway hc hle hstop hlimit hnext)
        (hc.start_le.trans hle) hstop hlimit hturn.symm

theorem Calls.refuses (h : Calls idle offset len c ms b c')
    (hout : offset < c.cursor ∨ c.stop ≤ offset) :
    ms = [] ∧ b = .error (.outOfRange offset c.stop) ∧ c' = c := by
  have hstarts : Reading.start c offset len = .error (.outOfRange offset c.stop) := by
    rw [Reading.start, if_pos (by simpa only [Bool.or_eq_true, decide_eq_true_eq] using hout)]
  cases h with
  | refused h =>
    rw [hstarts] at h
    cases h
    exact ⟨rfl, rfl, rfl⟩
  | ends h =>
    rw [hstarts] at h
    cases h

theorem Later.tracks {c₀ : Connection} (hc₀ : c₀.Tracks start stop payload)
    (hlimit : stop < positionLimit) (h : Later σ c₀ c) : c.Tracks start stop payload := by
  induction h with
  | here => exact hc₀
  | @called c c' idle offset len ms b h hc ih =>
    by_cases hout : offset < c.cursor ∨ c.stop ≤ offset
    · rw [(hc.refuses hout).2.2]
      exact ih
    · rw [not_or, Nat.not_lt, Nat.not_le, ih.fixed] at hout
      exact (hc.serves ih hout.1 hout.2 hlimit).1
  | abandoned h hs hr ht ih =>
    obtain ⟨hle, hstop, rfl⟩ := Reading.start_eq_ok_iff.1 hs
    rw [ih.fixed] at hstop
    exact (hr.underway ih hle hstop hlimit ht).conn

/-- **A connection reads its response faithfully.** Whatever calls have been made to a connection,
it keeps track of its response. The next call is refused without any effect if it asks for bytes
behind the cursor or past the end; else it copies the bytes of the response at its position, or
fails for a reason and loses none of them. -/
theorem calls_follow_response {id now : Nat} {body : Body} (h : start ≤ stop)
    (hlimit : stop < positionLimit) (hc : Later σ (opened id start stop body now) c) :
    c.Tracks start stop body.payload ∧
      ∀ (idle : Duration) (offset len : Nat) (ms : List (Reading.Moment σ))
        (b : Except Failure (List UInt8)) (c' : Connection), Calls idle offset len c ms b c' →
        c'.Tracks start stop body.payload ∧
          (offset < c.cursor ∨ stop ≤ offset →
            ms = [] ∧ b = .error (.outOfRange offset stop) ∧ c' = c) ∧
          (c.cursor ≤ offset → offset < stop →
            Serves idle start stop body.payload offset len c ms b c') := by
  have htracks := hc.tracks (.opened id body now h) hlimit
  refine ⟨htracks, fun idle offset len ms b c' hcall => ⟨?_, fun hout => ?_, fun hle hstop => ?_⟩⟩
  · exact (hc.called hcall).tracks (.opened id body now h) hlimit
  · rw [← htracks.fixed] at hout ⊢
    exact hcall.refuses hout
  · exact (hcall.serves htracks hle hstop hlimit).2

/-- A response that fails after two of its bytes, and holds one more than was asked for. -/
def brokenOnce : Body :=
  [.chunk [1, 2], .failure (.network "reset"), .chunk [], .chunk [3, 4, 5]]

/-- A world in which nothing has happened. -/
def quiet : World Unit := .fresh () "https://example.com/a.bin" none

/-- The turns of a read that nobody interferes with, so many of them, with what the latest one has
come to and the world that it has left. -/
def alone (idle : Duration) (r : Reading) (w : World σ) :
    Nat → List (Reading.Moment σ) ×
      Turn Reading (Except Failure (List UInt8) × Connection) × World σ
  | 0 => ([], .moved r, w)
  | n + 1 =>
    let before := alone idle r w n
    match before.2.1.next? with
    | some r' => (⟨r', before.2.2⟩ :: before.1, r'.step idle before.2.2)
    | none => before

theorem course_alone (idle : Duration) (r : Reading) (w : World σ) (n : Nat) :
    Reading.Course idle r (alone idle r w n).1 (alone idle r w n).2.1 := by
  induction n with
  | zero => exact .nil
  | succ n ih =>
    rw [alone]
    split
    · rename_i r' hr
      exact ih.snoc hr _
    · exact ih

/-- The connection after a call that has skipped a byte, copied another one and failed. -/
def interrupted : Connection := ⟨1, 12, 14, [], [.chunk [], .chunk [3, 4, 5]], 0⟩

/-- The connection after another call, which has copied the two bytes that follow. -/
def usedUp : Connection := ⟨1, 14, 14, [5], [], 0⟩

/-- What a call has lost to a failure, the next one still gets. -/
theorem calls_follow_response_after_failure :
    Later Unit (opened 1 10 14 brokenOnce 0) interrupted ∧
      ∃ ms : List (Reading.Moment Unit),
        Calls (.ofSeconds 1) 12 5 interrupted ms (.ok [3, 4]) usedUp ∧
        usedUp.Tracks 10 14 [1, 2, 3, 4, 5] := by
  have hfirst := course_alone (.ofSeconds 1) (.begun (opened 1 10 14 brokenOnce 0) 11 2) quiet 2
  have hfails : (alone (.ofSeconds 1) (.begun (opened 1 10 14 brokenOnce 0) 11 2) quiet 2).2.1 =
    .done (.error (.network "reset"), interrupted) := rfl
  have hsecond := course_alone (.ofSeconds 1) (.begun interrupted 12 5) quiet 3
  have hcopies : (alone (.ofSeconds 1) (.begun interrupted 12 5) quiet 3).2.1 =
    .done (.ok [3, 4], usedUp) := rfl
  rw [hfails] at hfirst
  rw [hcopies] at hsecond
  have hbroken : Calls (.ofSeconds 1) 11 2 (opened 1 10 14 brokenOnce 0) _
      (.error (.network "reset")) interrupted := .ends rfl hfirst
  have hcall : Calls (.ofSeconds 1) 12 5 interrupted _ (.ok [3, 4]) usedUp := .ends rfl hsecond
  have hlater : Later Unit (opened 1 10 14 brokenOnce 0) interrupted := .called .here hbroken
  have hfollows := calls_follow_response (by decide) (by decide) hlater
  exact ⟨hlater, _, hcall, (hfollows.2 _ _ _ _ _ _ hcall).1⟩

end Connection

end RemoteFile
