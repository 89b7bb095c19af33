import RemoteFile.Proofs.Transport.Acceptance
import RemoteFile.Proofs.Transport.Service

/-!
# The responses of the memory transport

A response of the memory transport is cut into chunks, none of which is empty or longer than the
store says. The bytes of a response without an injected failure are compared with those that a
server sends that has the object and reads the header of the request.

They are the same as long as the range has no end, or one above its start. An end that is not above
the start is left out of the header, so that a server sends everything from the start on; the memory
transport takes it at its word, and sends nothing if the range is empty. If it ends before it starts
there is no piece of the object to be sent, and the program breaks off.

Main statements:

* `Memory.cut_pieces` : how bytes are cut into chunks.
* `Http.sent_header` : what a server sends for the header of a range.
* `Memory.serves_header_iff` : for which ranges the memory transport sends what the header asks for.
-/

namespace RemoteFile

/-- The response holds these bytes, and neither fails nor keeps its reader waiting. -/
structure Body.Holds (b : Body) (bytes : List UInt8) : Prop where
  /-- There is nothing but chunks. -/
  chunks : ∀ p ∈ b, ∃ chunk, p = .chunk chunk
  /-- They hold the bytes. -/
  payload : b.payload = bytes

/-! ### What a server sends -/

namespace Http

/-- The bytes of an object that a server sends for the header of a request: none if it does not
understand it, or if the object ends before. -/
def sent (data : List UInt8) (header : String) : Option (List UInt8) :=
  (asked? header.toList).bind fun asked =>
    if asked.1 < data.length then
      some (slice data asked.1 (lastSent data.length asked.2 + 1))
    else none

variable {data : List UInt8} {range : ByteRange}

/-- What a server sends for the header of a range: everything from the start on, but not past an end
above it. -/
theorem sent_header (h : range.start < data.length) :
    sent data range.header =
      some (slice data range.start (min (range.namedStop.getD data.length) data.length)) := by
  rw [sent, asked?_header, Option.bind_some, if_pos h]
  congr 2
  cases hn : range.namedStop with
  | none =>
    simp only [Option.map_none, lastSent, Option.getD_none]
    omega
  | some stop =>
    have hlt := (range.namedStop_eq_some_iff.1 hn).2
    simp only [Option.map_some, lastSent, Option.getD_some]
    omega

end Http

namespace Memory

/-! ### Chunks -/

theorem holds_chunks (store : Store) (bytes : List UInt8) : (chunks store bytes).Holds bytes where
  chunks p hp := by
    obtain ⟨chunk, -, rfl⟩ := List.mem_map.1 hp
    exact ⟨chunk, rfl⟩
  payload := (payload_map_chunk _).trans (flatten_pieces _ _)

/-! ### Requests for a range -/

/-- What comes of a request for a range, if nobody else is at work. -/
def fetched (store : Store) (url : String) (range : ByteRange) (now : Nat) (s : State) :
    Except Failure Body :=
  let (ticket, s, _) := receive store now (.openRange url range) s
  (opened store ticket s).1

/-- No failure is injected into the next request. -/
def State.Undisturbed (s : State) : Prop := ∀ e ∈ s.injections, e.1 ≠ s.requests + 1

/-- The URL is accepted. -/
def State.Accepts (s : State) (url : String) : Prop :=
  ∀ other, s.accepted = some other → other = url

variable {store : Store} {url : String} {range : ByteRange} {s : State}

theorem fetched_eq (now : Nat) (h : range.start < store.data.length) (hfault : s.Undisturbed)
    (hurl : s.Accepts url) :
    fetched store url range now s =
      if isReversed range then .error (crashed range)
      else .ok (chunks store (served store range)) := by
  have hnone : s.injections.find? (fun e => e.1 == s.requests + 1) = none :=
    List.find?_eq_none.2 fun e he => by simpa using hfault e he
  have haccepted : s.accepted.any (· != url) = false := by
    cases haccept : s.accepted with
    | none => rfl
    | some other => simpa using hurl other haccept
  simp only [fetched, receive, hnone, Option.map_none, opened, answered, urlOf, haccepted,
    Bool.false_eq_true, if_false, Nat.not_le.2 h, body]
  split <;> rfl

theorem served_eq_slice (store : Store) (range : ByteRange) :
    served store range =
      slice store.data range.start
        (min (range.stop.getD store.data.length) store.data.length) := rfl

theorem served_of_stop_le {stop : Nat} (hstop : range.stop = some stop) (h : stop ≤ range.start) :
    served store range = [] := by
  rw [served_eq_slice, hstop, Option.getD_some, slice, Nat.sub_eq_zero_of_le, List.take_zero]
  exact (Nat.min_le_left _ _).trans h

theorem slice_ne_nil {data : List UInt8} {start stop : Nat} (h : start < data.length)
    (hstop : start < stop) : slice data start stop ≠ [] := by
  rw [slice, Ne, List.take_eq_nil_iff, List.drop_eq_nil_iff]
  omega

theorem namedStop_of_stop_le {stop : Nat} (hstop : range.stop = some stop)
    (h : stop ≤ range.start) : range.namedStop = none :=
  range.namedStop_eq_none_iff.2 fun other hother => by
    cases hstop.symm.trans hother
    exact h

theorem namedStop_of_lt (h : ∀ stop, range.stop = some stop → range.start < stop) :
    range.namedStop = range.stop := by
  cases hstop : range.stop with
  | none => simp [ByteRange.namedStop, hstop]
  | some stop => exact range.namedStop_eq_some_iff.2 ⟨hstop, h stop hstop⟩

/-- **For which ranges the memory transport sends what the header asks for.** A request without an
injected failure, for a URL that is accepted and from a start inside of the object on, succeeds and
gets the bytes that the header of the range asks a server for, if and only if the range has no end
or one above its start: these are the bytes up to the end, but not past the object. An empty range
gets no bytes though its header asks for all from the start on, and one that ends before it starts
breaks the program off. -/
theorem serves_header_iff (now : Nat) (h : range.start < store.data.length)
    (hfault : s.Undisturbed) (hurl : s.Accepts url) :
    ((∃ body bytes, fetched store url range now s = .ok body ∧ body.Holds bytes ∧
        Http.sent store.data range.header = some bytes) ↔
      ∀ stop, range.stop = some stop → range.start < stop) ∧
    ((∀ stop, range.stop = some stop → range.start < stop) →
      ∃ body, fetched store url range now s = .ok body ∧
        body.Holds (slice store.data range.start
          (min (range.stop.getD store.data.length) store.data.length))) ∧
    (range.stop = some range.start → fetched store url range now s = .ok []) ∧
    ∀ stop, range.stop = some stop → stop < range.start →
      fetched store url range now s = .error (crashed range) := by
  have hfetched := fetched_eq now h hfault hurl
  have hsent := Http.sent_header h
  have hserves : (∀ stop, range.stop = some stop → range.start < stop) →
      fetched store url range now s = .ok (chunks store (served store range)) := fun hstop => by
    have hforward : isReversed range = false := by
      cases hs : range.stop with
      | none => simp [isReversed, hs]
      | some stop => simpa [isReversed, hs] using Nat.le_of_lt (hstop stop hs)
    rw [hfetched, hforward, if_neg Bool.false_ne_true]
  refine ⟨⟨?_, fun hstop => ?_⟩, fun hstop => ?_, fun hstop => ?_, fun stop hstop hlt => ?_⟩
  · rintro ⟨body, bytes, hbody, hholds, hbytes⟩ stop hstop
    by_contra hle
    rw [Nat.not_lt] at hle
    -- a server has something to send, the memory transport has not
    rw [hsent, namedStop_of_stop_le hstop hle, Option.getD_none, Nat.min_self] at hbytes
    cases hbytes
    rw [hfetched, served_of_stop_le hstop hle] at hbody
    split at hbody <;> cases hbody
    refine slice_ne_nil h h (hholds.payload.symm.trans ?_)
    exact (holds_chunks store []).payload
  · refine ⟨_, _, hserves hstop, holds_chunks _ _, ?_⟩
    rw [hsent, namedStop_of_lt hstop, served_eq_slice]
  · exact ⟨_, hserves hstop, holds_chunks _ _⟩
  · have hforward : isReversed range = false := by simp [isReversed, hstop]
    rw [hfetched, hforward, served_of_stop_le hstop (Nat.le_refl _), if_neg Bool.false_ne_true]
    simp [chunks, pieces, piecesAfter]
  · have hreversed : isReversed range = true := by simpa [isReversed, hstop] using hlt
    rw [hfetched, hreversed, if_pos rfl]

/-- Five bytes in chunks of two. -/
def fiveBytes : Store := ⟨[10, 11, 12, 13, 14], 2, Duration.zero⟩

/-- From the second of five bytes on, with an end past the last one. -/
theorem serves_header_of_four :
    (1 < fiveBytes.data.length ∧ State.fresh.Undisturbed ∧
      State.fresh.Accepts "https://example.com/a.bin") ∧
    (∃ body bytes, fetched fiveBytes "https://example.com/a.bin" (.between 1 9) 0 .fresh =
        .ok body ∧ body.Holds bytes ∧
        Http.sent fiveBytes.data (ByteRange.between 1 9).header = some bytes) ∧
    Http.sent fiveBytes.data (ByteRange.between 1 9).header = some [11, 12, 13, 14] ∧
    fetched fiveBytes "https://example.com/a.bin" (.between 1 9) 0 .fresh =
      .ok [.chunk [11, 12], .chunk [13, 14]] := by
  have hstart : (ByteRange.between 1 9).start < fiveBytes.data.length := by decide
  have hfault : State.fresh.Undisturbed := fun e he => nomatch he
  have hurl : State.fresh.Accepts "https://example.com/a.bin" := fun other h => nomatch h
  have hforward : ∀ stop, (ByteRange.between 1 9).stop = some stop → 1 < stop := fun stop h => by
    cases h
    decide
  refine ⟨⟨hstart, hfault, hurl⟩, (serves_header_iff 0 hstart hfault hurl).1.2 hforward,
    Http.sent_header hstart, ?_⟩
  rw [fetched_eq 0 hstart hfault hurl]
  simp [isReversed, ByteRange.between, chunks, pieces, piecesAfter, served, fiveBytes]

/-- An empty range from the third of five bytes on: the header asks for three bytes, and none is
sent. -/
theorem empty_range_is_not_served :
    2 < fiveBytes.data.length ∧ State.fresh.Undisturbed ∧
      State.fresh.Accepts "https://example.com/a.bin" ∧
      Http.sent fiveBytes.data (ByteRange.between 2 2).header = some [12, 13, 14] ∧
      fetched fiveBytes "https://example.com/a.bin" (.between 2 2) 0 .fresh = .ok [] := by
  have hstart : (ByteRange.between 2 2).start < fiveBytes.data.length := by decide
  have hfault : State.fresh.Undisturbed := fun e he => nomatch he
  have hurl : State.fresh.Accepts "https://example.com/a.bin" := fun other h => nomatch h
  refine ⟨hstart, hfault, hurl, Http.sent_header hstart, ?_⟩
  rw [fetched_eq 0 hstart hfault hurl]
  simp [isReversed, ByteRange.between, chunks, pieces, piecesAfter, served, fiveBytes]

end Memory

end RemoteFile
