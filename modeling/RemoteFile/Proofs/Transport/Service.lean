import RemoteFile.Proofs.Connection.Faithful
import RemoteFile.Transport.Memory

/-!
# Transports that serve an object

A transport serves an object if its probes tell the length of the object, and if whatever comes of
a request for a range is the beginning of that range, as far as anything comes: in chunks of any
size, and then the response ends, fails or is silent. Such a transport may fail every request and
may depend on all that it was asked before, so that what it keeps in mind is part of a `Service`.

Main statements:

* `Service.later_closed` : a service goes on after any number of responses are closed.
* `Memory.service` : the memory transport serves its store, whatever failures are injected.
-/

namespace RemoteFile

/-- The later state is good as well, and remembers every request of the earlier one. -/
structure Remembers {σ τ : Type} (good : σ → Prop) (awaits : σ → τ → Call → Prop)
    (st st' : σ) : Prop where
  /-- The state is good. -/
  good : good st'
  /-- It remembers every request. -/
  awaits : ∀ ticket call, awaits st ticket call → awaits st' ticket call

/-- How a transport serves the object `data`, while it changes by itself as `shift` says. -/
structure Service {σ τ : Type} (net : Transport σ τ) (shift : σ → σ → Prop)
    (data : List UInt8) where
  /-- The states in which it serves the object. -/
  good : σ → Prop
  /-- The requests that tickets stand for. -/
  awaits : σ → τ → Call → Prop
  /-- A ticket stands for the request that it was given for. -/
  sent : ∀ {now : Nat} {call : Call} {ticket : τ} {st st' : σ} {notices : List Notice}, good st →
    net.send now call st = (ticket, st', notices) →
    Remembers good awaits st st' ∧ awaits st' ticket call
  /-- The answer to a probe tells the length. -/
  probed : ∀ {url : String} {ticket : τ} {st : σ} {p : Probe}, good st →
    awaits st ticket (.probe url) → net.probed ticket st = .ok p → p.size = data.length
  /-- The answer to a request for a range may be collected. -/
  opened : ∀ {url : String} {range : ByteRange} {ticket : τ} {st st' : σ}
    {answer : Except Failure Body} {notices : List Notice}, good st →
    awaits st ticket (.openRange url range) → net.opened ticket st = (answer, st', notices) →
    Remembers good awaits st st'
  /-- It is the beginning of the range. -/
  served : ∀ {url : String} {start stop : Nat} {ticket : τ} {st st' : σ} {body : Body}
    {notices : List Notice}, good st → start < stop →
    awaits st ticket (.openRange url (ByteRange.between start stop)) →
    net.opened ticket st = (.ok body, st', notices) →
    body.heard <+: slice data start (min stop data.length)
  /-- A response may be closed. -/
  closed : ∀ {st : σ}, good st → Remembers good awaits st (net.closed st)
  /-- The transport may change by itself. -/
  shifted : ∀ {st st' : σ}, good st → shift st st' → Remembers good awaits st st'

namespace Service

variable {σ τ : Type} {net : Transport σ τ} {shift : σ → σ → Prop} {data : List UInt8}
  (v : Service net shift data) {st st' st'' : σ}

/-- A state in which the service goes on, and with it every request that is under way. -/
abbrev Later (st st' : σ) : Prop := Remembers v.good v.awaits st st'

variable {v}

theorem Later.refl (h : v.good st) : v.Later st st := ⟨h, fun _ _ h => h⟩

theorem Later.trans (h : v.Later st st') (h' : v.Later st' st'') : v.Later st st'' :=
  ⟨h'.good, fun ticket call ha => h'.awaits ticket call (h.awaits ticket call ha)⟩

/-- A service goes on after any number of responses are closed. -/
theorem later_closed (h : v.good st) (n : Nat) : v.Later st (net.closed^[n] st) := by
  induction n with
  | zero => exact .refl h
  | succ n ih =>
    rw [Function.iterate_succ_apply']
    exact ih.trans (v.closed ih.good)

end Service

/-! ### The memory transport -/

namespace Memory

theorem heard_map_chunk (l : List (List UInt8)) (b : Body) :
    Body.heard (l.map Part.chunk ++ b) = l.flatten ++ b.heard := by
  induction l with
  | nil => rfl
  | cons a l ih =>
    rw [List.map_cons, List.cons_append, Body.heard, ih, List.flatten_cons, List.append_assoc]

theorem heard_chunks (store : Store) (bytes : List UInt8) (b : Body) :
    Body.heard (chunks store bytes ++ b) = bytes ++ b.heard := by
  rw [chunks, heard_map_chunk, flatten_pieces]

theorem heard_body (store : Store) (r : ByteRange) (i : Option Injection) :
    (body store r i).heard <+: served store r := by
  have hchunks : ∀ bytes, (chunks store bytes).heard = bytes := fun bytes => by
    have h := heard_chunks store bytes []
    rwa [List.append_nil, Body.heard, List.append_nil] at h
  unfold body
  split
  · rw [heard_chunks, Body.heard, List.append_nil]
    exact List.take_prefix _ _
  · exact List.nil_prefix
  · rw [hchunks]
    exact List.take_prefix _ _
  · rw [hchunks]
  · rw [hchunks]

theorem size_of_probed {store : Store} {t : Ticket} {s : State} {p : Probe}
    (h : probed store t s = .ok p) : p.size = store.data.length := by
  unfold probed at h
  split at h <;> cases h
  rfl

theorem heard_of_opened {store : Store} {t : Ticket} {s s' : State} {b : Body}
    {notices : List Notice} {url : String} {range : ByteRange} (ht : t.call = .openRange url range)
    (h : opened store t s = (.ok b, s', notices)) : b.heard <+: served store range := by
  simp only [opened, ht] at h
  split at h
  · cases h
  · rename_i heq _
    cases heq
  · rename_i heq _
    cases heq
    split at h
    · cases h
    · split at h <;> cases h
      exact heard_body store range _

/-- The memory transport serves its store, whatever failures are injected. -/
def service (store : Store) (shift : State → State → Prop) :
    Service (transport store) shift store.data where
  good _ := True
  awaits _ t c := t.call = c
  sent _ h := by
    cases h
    exact ⟨⟨trivial, fun _ _ h => h⟩, rfl⟩
  probed _ _ h := size_of_probed h
  opened _ _ _ := ⟨trivial, fun _ _ h => h⟩
  served _ _ ht h := heard_of_opened ht h
  closed _ := ⟨trivial, fun _ _ h => h⟩
  shifted _ _ := ⟨trivial, fun _ _ h => h⟩

end Memory

/-! ### A transport that never fails -/

namespace Transport

/-- Answers every request at once, one for a range in an empty chunk and one with all its bytes. -/
def prompt (data : List UInt8) : Transport Unit Call where
  send _ call st := (call, st, [])
  due _ := some 0
  probed _ _ := .ok ⟨data.length, none, none⟩
  opened call st :=
    match call with
    | .probe _ => (.ok [], st, [])
    | .openRange _ range =>
      let stop := min (range.stop.getD data.length) data.length
      (.ok [.chunk [], .chunk (slice data range.start stop)], st, [])
  closed st := st

/-- This serves the object. -/
def promptService (data : List UInt8) (shift : Unit → Unit → Prop) :
    Service (prompt data) shift data where
  good _ := True
  awaits _ ticket call := ticket = call
  sent _ h := by
    cases h
    exact ⟨⟨trivial, fun _ _ h => h⟩, rfl⟩
  probed _ _ h := by
    cases h
    rfl
  opened _ _ _ := ⟨trivial, fun _ _ h => h⟩
  served _ _ ht h := by
    cases ht
    cases h
    simp [Body.heard, ByteRange.between]
  closed _ := ⟨trivial, fun _ _ h => h⟩
  shifted _ _ := ⟨trivial, fun _ _ h => h⟩

end Transport

end RemoteFile
