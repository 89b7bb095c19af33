import RemoteFile.Text.Quoted
import RemoteFile.Transport
import RemoteFile.Event.Line

/-!
# The memory transport

Serves an object that is kept in memory, in chunks and after a delay, with failures that can be
injected into single requests. Requests are numbered from 1 in the order of their arrival. The
transport also counts the responses that are open.

Main statement:

* `Memory.flatten_pieces` : cutting bytes into pieces keeps them.
-/

namespace RemoteFile

namespace Memory

/-- What is served, and how. -/
structure Store where
  /-- The object. -/
  data : List UInt8
  /-- The most bytes that a chunk holds; 0 counts as 1. -/
  chunkSize : Nat
  /-- How long an answer takes. -/
  latency : Duration
deriving DecidableEq, Repr

/-- Chunks of 16 KiB without delay. -/
def Store.of (data : List UInt8) : Store := ⟨data, 16384, Duration.zero⟩

/-- What a memory transport keeps in mind. -/
structure State where
  /-- The only URL that is accepted; none if all are. -/
  accepted : Option String
  /-- The failures to inject, by the number of the request. -/
  injections : List (Nat × Injection)
  /-- Requests so far. -/
  requests : Nat
  /-- Responses that are open. -/
  alive : Nat
  /-- The most responses that were ever open at once. -/
  peak : Nat
deriving DecidableEq, Repr

namespace State

/-- Nothing has happened. -/
def fresh : State := ⟨none, [], 0, 0, 0⟩

/-- Injects a failure into a request by its number, in place of an earlier one. -/
def inject (s : State) (number : Nat) (i : Injection) : State :=
  { s with injections := (number, i) :: s.injections.filter fun e => e.1 != number }

/-- Injects a failure into the next request. -/
def injectNext (s : State) (i : Injection) : State := s.inject (s.requests + 1) i

/-- Rejects every URL but this one. -/
def acceptOnly (s : State) (url : String) : State := { s with accepted := some url }

/-- Opens a response. -/
def opening (s : State) : State :=
  { s with alive := s.alive + 1, peak := max s.peak (s.alive + 1) }

/-- Closes a response. -/
def closing (s : State) : State := { s with alive := s.alive - 1 }

end State

/-- A request that has arrived. -/
structure Ticket where
  /-- What is asked for. -/
  call : Call
  /-- When the answer is there. -/
  due : Nat
  /-- The failure that was injected into the request. -/
  injection : Option Injection
deriving DecidableEq, Repr

/-- The URL of a call. -/
def urlOf : Call → String
  | .probe url => url
  | .openRange url _ => url

/-- Receives a request: it takes the next number and the failure injected for that. -/
def receive (store : Store) (now : Nat) (call : Call) (s : State) : Ticket × State × List Notice :=
  let number := s.requests + 1
  let injection := (s.injections.find? fun e => e.1 == number).map Prod.snd
  (⟨call, if store.latency.isZero then now else store.latency.timerFrom now, injection⟩,
    { s with requests := number, injections := s.injections.filter fun e => e.1 != number },
    [.arrived number (urlOf call) injection])

/-- Rejects a URL that is not accepted, and answers with the status that was injected. -/
def answered (t : Ticket) (s : State) : Except Failure (Option Injection) :=
  let url := urlOf t.call
  if s.accepted.any (· != url) then .error (.status 403 url)
  else
    match t.injection with
    | some (.status code) => .error (.status code url)
    | other => .ok other

/-- Answers a probe. -/
def probed (store : Store) (t : Ticket) (s : State) : Except Failure Probe :=
  match answered t s with
  | .error f => .error f
  | .ok (some i) => .error (.network ("injected " ++ i.text ++ " during probe"))
  | .ok none =>
    .ok ⟨store.data.length, some ("\"" ++ Text.hex store.data.length ++ "\""), none⟩

/-- Cuts bytes into pieces of the given size, after the pieces that are done, the latest one of
these first. -/
def piecesAfter (size : Nat) (done : List (List UInt8)) : List UInt8 → List (List UInt8)
  | [] => done.reverse
  | b :: rest => piecesAfter size ((b :: rest.take (size - 1)) :: done) (rest.drop (size - 1))
termination_by bytes => bytes.length
decreasing_by
  simp only [List.length_drop, List.length_cons]
  omega

/-- Cuts bytes into pieces of the given size; the last one may be shorter. -/
def pieces (size : Nat) (bytes : List UInt8) : List (List UInt8) := piecesAfter size [] bytes

/-- The bytes of the object that a response serves. -/
def served (store : Store) (r : ByteRange) : List UInt8 :=
  let stop := min (r.stop.getD store.data.length) store.data.length
  (store.data.drop r.start).take (stop - r.start)

/-- Bytes as the chunks of a response. -/
def chunks (store : Store) (bytes : List UInt8) : Body :=
  (pieces store.chunkSize bytes).map Part.chunk

/-- The response to a request for a range with the given injected failure. -/
def body (store : Store) (r : ByteRange) : Option Injection → Body
  | some .reset =>
    chunks store ((served store r).take (max store.chunkSize 1)) ++
      [.failure (.network "connection reset by peer")]
  | some .stall => [.silence]
  | some (.truncate n) => chunks store ((served store r).take n)
  | some (.status _) | none => chunks store (served store r)

/-- The range ends before it starts, so that no piece of the object can be cut for it. -/
def isReversed (r : ByteRange) : Bool := r.stop.any (· < r.start)

/-- What comes of cutting a piece for such a range. -/
def crashed (r : ByteRange) : Failure :=
  .crash ("range start must not be greater than end: " ++ toString r.start ++ " <= " ++
    toString (r.stop.getD r.start))

/-- Answers a request for a range. -/
def opened (store : Store) (t : Ticket) (s : State) : Except Failure Body × State × List Notice :=
  match t.call, answered t s with
  | _, .error f => (.error f, s, [])
  | .probe url, .ok _ => (.error (.status 416 url), s, [])
  | .openRange url range, .ok injection =>
    if store.data.length ≤ range.start then (.error (.status 416 url), s, [])
    else if isReversed range then (.error (crashed range), s, [])
    else (.ok (body store range injection), s.opening, [])

/-- The transport that serves a store. -/
def transport (store : Store) : Transport State Ticket where
  send := receive store
  due t := some t.due
  probed := probed store
  opened := opened store
  closed := State.closing

/-- The counts of a memory transport, and its injected failures. -/
def controls : Controls State where
  streams s := some (s.alive, s.peak, s.requests)
  inject
    | some number, i, s => s.inject number i
    | none, i, s => s.injectNext i
  acceptOnly url s := s.acceptOnly url

theorem flatten_piecesAfter (size : Nat) (done : List (List UInt8)) (bytes : List UInt8) :
    (piecesAfter size done bytes).flatten = done.reverse.flatten ++ bytes := by
  fun_induction piecesAfter size done bytes with
  | case1 => simp
  | case2 done b rest ih => simp [ih, List.take_append_drop]

theorem flatten_pieces (size : Nat) (bytes : List UInt8) : (pieces size bytes).flatten = bytes := by
  simp [pieces, flatten_piecesAfter]

theorem payload_map_chunk (l : List (List UInt8)) :
    Body.payload (l.map Part.chunk) = l.flatten := by
  induction l with
  | nil => rfl
  | cons a r ih => simp [Body.payload, ih]

end Memory

end RemoteFile
