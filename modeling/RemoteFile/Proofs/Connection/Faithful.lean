import Mathlib.Data.List.Basic
import Mathlib.Data.List.Infix
import RemoteFile.Proofs.Connection.Read
import RemoteFile.Proofs.Crowd

/-!
# Connections are faithful

What is still to come on a connection is the object from the cursor on, as far as anything comes at
all. A read on it keeps that, also where it stops half way, and copies exactly the bytes of the
object from its position on.

Main statements:

* `Body.heard_pull_chunk` : a chunk that is pulled is the next that can be heard.
* `Reading.Placed.copied` : what a read copies is what comes from its position on.
* `Reading.Faithful.consume` : using up bytes keeps a read faithful.
* `Reading.Faithful.step` : so does every turn of a read, and the read yields what was wanted.
-/

namespace RemoteFile

namespace Body

/-- The bytes that a reader gets who stops at the first failure, and at a silence. -/
def heard : Body → List UInt8
  | [] => []
  | .chunk bytes :: rest => bytes ++ heard rest
  | .pause _ :: rest | .pauseUntil _ :: rest => heard rest
  | .failure _ :: _ | .silence :: _ => []

/-- A chunk that is pulled is the next that can be heard. -/
theorem heard_pull_chunk {now deadline : Nat} {b : Body} {bytes : List UInt8}
    (h : (b.pull now deadline).1 = .chunk bytes) :
    b.heard = bytes ++ heard (b.pull now deadline).2 := by
  fun_induction pull now deadline b with
  | case1 => cases h
  | case2 => cases h; rfl
  | case3 => cases h
  | case4 rest ih => exact ih h
  | case5 => exact absurd h (held_ne_chunk _ _ _ _)
  | case6 time rest _ ih => exact ih h
  | case7 | case8 => exact absurd h (held_ne_chunk _ _ _ _)

theorem heard_pull_pending {now deadline wake : Nat} {b : Body}
    (h : (b.pull now deadline).1 = .pending wake) : heard (b.pull now deadline).2 = b.heard := by
  fun_induction pull now deadline b with
  | case1 | case2 | case3 => cases h
  | case4 rest ih => exact ih h
  | case5 => rfl
  | case6 time rest _ ih => exact ih h
  | case7 | case8 => rfl

end Body

/-- The bytes of an object from `start` up to but not including `stop`. -/
def slice (data : List UInt8) (start stop : Nat) : List UInt8 :=
  (data.drop start).take (stop - start)

theorem slice_drop (data : List UInt8) (start stop n : Nat) :
    (slice data start stop).drop n = slice data (start + n) stop := by
  rw [slice, slice, List.drop_take, List.drop_drop, Nat.sub_sub]

theorem slice_self (data : List UInt8) (p : Nat) : slice data p p = [] := by
  rw [slice, Nat.sub_self, List.take_zero]

theorem slice_append (data : List UInt8) {start mid stop : Nat} (h : start ≤ mid)
    (h' : mid ≤ stop) :
    slice data start mid ++ slice data mid stop = slice data start stop := by
  have hlength : stop - start = (mid - start) + (stop - mid) := by omega
  rw [slice, slice, slice, hlength, List.take_add, List.drop_drop, Nat.add_sub_cancel' h]

theorem prefix_of_slice (data : List UInt8) (start stop : Nat) :
    slice data start stop <+: data.drop start :=
  List.take_prefix _ _

theorem prefix_drop_append {data l b : List UInt8} {offset : Nat} (hl : l <+: data.drop offset)
    (hb : b <+: data.drop (offset + l.length)) : l ++ b <+: data.drop offset := by
  have hsplit := List.prefix_iff_eq_append.1 hl
  rw [List.drop_drop] at hsplit
  rw [← hsplit]
  exact (List.prefix_append_right_inj _).2 hb

/-- What is there and what can still be heard on a connection is the object from the cursor on, and
the connection does not reach past the end of the object. -/
structure Connection.Faithful (data : List UInt8) (c : Connection) : Prop where
  /-- The bytes are those of the object. -/
  bytes : c.pending ++ c.body.heard <+: slice data c.cursor c.stop
  /-- There are no more than the object has. -/
  stop : c.stop ≤ data.length

namespace Reading

/-- A read of at most `len` bytes at `offset` that does as it should: its connection is faithful, it
drops bytes up to the position, and it has copied the bytes from there on. -/
structure Faithful (data : List UInt8) (offset len : Nat) (r : Reading) : Prop where
  /-- So is the connection. -/
  conn : r.conn.Faithful data
  /-- The connection stands after what was copied, or is on its way to the position. -/
  place : r.conn.cursor + r.ahead = offset + r.bytes.length
  /-- Nothing is copied on the way to the position. -/
  ahead : r.ahead ≠ 0 → r.bytes = []
  /-- The bytes from the position on are copied. -/
  copied : r.bytes <+: data.drop offset
  /-- What is copied and what is still to be copied is what was wanted. -/
  left : r.bytes.length + r.left = min len (r.conn.stop - offset)

variable {data : List UInt8} {offset len : Nat} {r r' : Reading}

theorem bytes_begun (c : Connection) (offset len : Nat) : (begun c offset len).bytes = [] := rfl

theorem length_taken_le (r : Reading) : r.taken.length ≤ r.left := List.length_take_le _ _

theorem dropped_le (r : Reading) : r.dropped ≤ r.ahead := Nat.min_le_left _ _

theorem pending_consume (r : Reading) :
    r.consume.conn.pending = r.conn.pending.drop (r.dropped + r.taken.length) := by
  change (r.conn.pending.drop r.dropped).drop r.left = _
  rw [← List.drop_drop, taken, List.length_take]
  rcases Nat.le_total r.left (r.conn.pending.drop r.dropped).length with hle | hle
  · rw [Nat.min_eq_left hle]
  · rw [Nat.min_eq_right hle, List.drop_length, List.drop_eq_nil_of_le hle]

/-- Short of the position, everything that is there is dropped. -/
theorem taken_of_dropped_ne {r : Reading} (h : r.dropped ≠ r.ahead) : r.taken = [] := by
  have hall : r.conn.pending.length ≤ r.dropped := by
    simp only [dropped] at h ⊢
    omega
  rw [taken, List.drop_eq_nil_of_le hall, List.take_nil]

theorem pending_of_not_isComplete {r : Reading} (h : r.consume.isComplete = false) :
    r.consume.conn.pending = [] := by
  rw [pending_consume]
  refine List.drop_eq_nil_of_le ?_
  -- either not everything is dropped that has to be, or not everything copied that is wanted
  simp only [isComplete, Bool.and_eq_false_iff, beq_eq_false_iff_ne, consume, dropped, taken,
    List.length_take, List.length_drop] at h ⊢
  omega

/-- A read of at most `len` bytes at `offset` stands where its counts say. -/
structure Placed (offset len : Nat) (r : Reading) : Prop where
  /-- The connection stands after what was copied, or is on its way to the position. -/
  place : r.conn.cursor + r.ahead = offset + r.bytes.length
  /-- Nothing is copied on the way to the position. -/
  ahead : r.ahead ≠ 0 → r.bytes = []
  /-- What is copied and what is still to be copied is what was wanted. -/
  left : r.bytes.length + r.left = min len (r.conn.stop - offset)

namespace Placed

theorem begun {c : Connection} (hle : c.cursor ≤ offset) :
    (begun c offset len).Placed offset len where
  place := by
    rw [bytes_begun, List.length_nil]
    exact Nat.add_sub_cancel' hle
  ahead _ := rfl
  left := Nat.zero_add _

/-- Using up bytes keeps the counts right. -/
theorem consume (h : r.Placed offset len) : r.consume.Placed offset len where
  place := by
    have hplace := h.place
    have hdropped := r.dropped_le
    rw [copied_consume, List.length_append]
    change r.conn.cursor + r.dropped + r.taken.length + (r.ahead - r.dropped) = _
    omega
  ahead hne := by
    -- on the way to the position everything is dropped and nothing is taken
    have hlt : r.ahead - r.dropped ≠ 0 := hne
    rw [copied_consume, taken_of_dropped_ne (by omega), h.ahead (by omega), List.append_nil]
  left := by
    have hleft := h.left
    have hle := r.length_taken_le
    rw [copied_consume, List.length_append]
    change r.bytes.length + r.taken.length + (r.left - r.taken.length) = _
    exact (by omega : _ = r.bytes.length + r.left).trans hleft

/-- What is copied is what comes from the position on, where `data` comes from `start` on. -/
theorem copied {start : Nat} (h : r.Placed offset len) (hstart : start ≤ r.conn.cursor)
    (hoffset : start ≤ offset) (hp : r.conn.pending <+: data.drop (r.conn.cursor - start))
    (hcopied : r.bytes <+: data.drop (offset - start)) :
    r.consume.bytes <+: data.drop (offset - start) := by
  rw [copied_consume]
  refine prefix_drop_append hcopied ?_
  by_cases hd : r.dropped = r.ahead
  · have hplace := h.place
    have ht : r.taken <+: r.conn.pending.drop r.ahead := by
      rw [← hd]
      exact List.take_prefix _ _
    have hpos := hp.drop r.ahead
    rw [List.drop_drop, show r.conn.cursor - start + r.ahead = offset - start + r.bytes.length by
      omega] at hpos
    exact ht.trans hpos
  · rw [taken_of_dropped_ne hd]
    exact List.nil_prefix

end Placed

theorem faithful_begun {c : Connection} (hc : c.Faithful data) (hle : c.cursor ≤ offset) :
    (begun c offset len).Faithful data offset len where
  conn := hc
  place := (Placed.begun hle).place
  ahead := (Placed.begun hle).ahead
  copied := List.nil_prefix
  left := (Placed.begun hle).left

theorem Faithful.placed (h : r.Faithful data offset len) : r.Placed offset len :=
  ⟨h.place, h.ahead, h.left⟩

theorem dropped_add_taken_le (r : Reading) :
    r.dropped + r.taken.length ≤ r.conn.pending.length := by
  simp only [dropped, taken, List.length_take, List.length_drop]
  omega

namespace Faithful

/-- Using up bytes keeps a read faithful. -/
theorem consume (h : r.Faithful data offset len) : r.consume.Faithful data offset len where
  conn := by
    refine ⟨?_, h.conn.stop⟩
    -- the cursor moves by as many bytes as leave the front of what was there
    have hb := h.conn.bytes.drop (r.dropped + r.taken.length)
    rw [List.drop_append_of_le_length r.dropped_add_taken_le, slice_drop, ← Nat.add_assoc] at hb
    rw [pending_consume]
    exact hb
  place := h.placed.consume.place
  ahead := h.placed.consume.ahead
  copied := h.placed.copied (Nat.zero_le _) (Nat.zero_le _)
    (((List.prefix_append _ _).trans h.conn.bytes).trans (prefix_of_slice _ _ _)) h.copied
  left := h.placed.consume.left

theorem renew {c : Connection} {deadline : Option Nat} (h : r.Faithful data offset len)
    (hcursor : c.cursor = r.conn.cursor) (hstop : c.stop = r.conn.stop)
    (hbytes : c.pending ++ c.body.heard = r.conn.pending ++ r.conn.body.heard) :
    Faithful data offset len { r with conn := c, deadline := deadline } where
  conn := by
    refine ⟨?_, hstop.trans_le h.conn.stop⟩
    rw [hbytes, hcursor, hstop]
    exact h.conn.bytes
  place := by
    rw [hcursor]
    exact h.place
  ahead := h.ahead
  copied := h.copied
  left := by
    rw [hstop]
    exact h.left

theorem receive_arrived {now : Nat} {idle : Duration} (h : r.Faithful data offset len)
    (hp : r.conn.pending = []) (hr : r.receive now idle = .arrived r') :
    r'.Faithful data offset len := by
  simp only [receive] at hr
  split at hr <;> cases hr
  rename_i bytes hpull
  refine h.renew rfl rfl ?_
  rw [hp, List.nil_append]
  exact (Body.heard_pull_chunk hpull).symm

theorem receive_waits {now wake : Nat} {idle : Duration} (h : r.Faithful data offset len)
    (hr : r.receive now idle = .waits r' wake) : r'.Faithful data offset len := by
  simp only [receive] at hr
  split at hr <;> cases hr
  rename_i hpull
  exact h.renew rfl rfl (congrArg _ (Body.heard_pull_pending hpull))

variable {σ : Type} {idle : Duration} {w w' : World σ}
  {t : Turn Reading (Except Failure (List UInt8) × Connection)}

/-- Every turn of a read keeps it faithful. -/
theorem step (h : r.Faithful data offset len) (hr : r.step idle w = (t, w'))
    (ht : t.next? = some r') : r'.Faithful data offset len := by
  simp only [Reading.step] at hr
  split at hr
  · cases hr
    cases ht
  · rename_i hc
    have hp : r.consume.conn.pending = [] := pending_of_not_isComplete (by simpa using hc)
    split at hr <;> cases hr <;> cases ht
    · rename_i hrec
      exact h.consume.receive_arrived hp hrec
    · rename_i hrec
      exact h.consume.receive_waits hrec

/-- **A read that succeeds yields the bytes of the object from its position on**, as many as were
wanted unless its connection ends before, and leaves a faithful connection. -/
theorem done {bytes : List UInt8} {c : Connection} (h : r.Faithful data offset len)
    (hr : r.step idle w = (.done (.ok bytes, c), w')) :
    bytes <+: data.drop offset ∧ bytes.length = min len (c.stop - offset) ∧ c.Faithful data := by
  simp only [Reading.step] at hr
  split at hr
  · rename_i hc
    cases hr
    have hleft := h.consume.left
    simp only [isComplete, Bool.and_eq_true, beq_iff_eq] at hc
    rw [hc.2, Nat.add_zero] at hleft
    exact ⟨h.consume.copied, hleft, h.consume.conn.bytes, h.consume.conn.stop⟩
  · split at hr <;> cases hr

end Faithful

end Reading

end RemoteFile
