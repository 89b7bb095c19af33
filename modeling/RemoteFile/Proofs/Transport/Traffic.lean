import Mathlib.Order.Bounds.Basic
import RemoteFile.Proofs.Transport.Response

/-!
# The traffic of a memory transport

Everything that can happen to a memory transport is a deed: a failure is injected, all URLs but one
are rejected, a request arrives, its answer is collected, the response to it is polled or dropped.
The deeds may come in any order; a request that is never collected, and a response that is never
dropped, are deeds left undone.

A memory transport decides about a request by what is in its table and its counters at that time.
The laws that are proved here say the same by looking back on the deeds: which failure a request is
subject to, what it comes to, what the polls of a response yield, and how many responses are open.

Main statements:

* `Body.Polled.prompt`, `Body.Polled.silent` : what polling a response comes to, poll after poll.
* `Memory.waiting_eq_lastInjected` : until a request arrives, the latest failure for it is kept.
* `Memory.touched_act` : what collecting, polling and dropping leave of a transport.
* `Memory.obeys_laws` : the laws hold after any deeds.
-/

namespace RemoteFile

/-! ### Polls of a response -/

/-- What a part yields as soon as it is polled; none if it makes its reader wait. -/
def Part.yield? : Part → Option Pull
  | .chunk bytes => some (.chunk bytes)
  | .failure f => some (.failed f)
  | .pause _ | .pauseUntil _ | .silence => none

namespace Body

/-- Polling a response again and again, at any times, yields these pulls and leaves this rest. -/
inductive Polled (b : Body) : List Pull → Body → Prop
  /-- It has not been polled. -/
  | unpolled : Polled b [] b
  /-- It is polled once more. -/
  | again {pulls : List Pull} {rest : Body} (h : Polled b pulls rest) (now deadline : Nat) :
      Polled b (pulls ++ [(rest.pull now deadline).1]) (rest.pull now deadline).2

/-- No part makes its reader wait. -/
def Prompt (b : Body) : Prop := ∀ p ∈ b, p.yield?.isSome

variable {b rest : Body} {pulls : List Pull}

/-- A response that makes nobody wait yields its parts one by one, and then ends at every poll. -/
theorem Polled.prompt (h : b.Polled pulls rest) (hb : b.Prompt) :
    rest.Prompt ∧ ∃ n, (rest = [] ∨ n = 0) ∧
      pulls ++ rest.filterMap Part.yield? = b.filterMap Part.yield? ++ List.replicate n .ended := by
  induction h with
  | unpolled => exact ⟨hb, 0, .inr rfl, by simp⟩
  | @again pulls rest h now deadline ih =>
    obtain ⟨hrest, n, hn, hpulls⟩ := ih
    cases rest with
    | nil =>
      refine ⟨hrest, n + 1, .inl rfl, ?_⟩
      rw [List.filterMap_nil, List.append_nil] at hpulls
      simp [pull, hpulls, List.replicate_succ']
    | cons p rest =>
      have htail : Prompt rest := fun q hq => hrest q (List.mem_cons_of_mem _ hq)
      obtain rfl : n = 0 := hn.resolve_left (List.cons_ne_nil _ _)
      have hp := hrest p List.mem_cons_self
      cases p with
      | chunk bytes | failure f =>
        exact ⟨htail, 0, .inr rfl, by simpa [pull, Part.yield?] using hpulls⟩
      | pause _ | pauseUntil _ | silence => simp [Part.yield?] at hp

/-- A response that is silent keeps its reader waiting at every poll. -/
theorem Polled.silent (h : Polled [.silence] pulls rest) :
    rest = [.silence] ∧ ∀ p ∈ pulls, p = .late ∨ ∃ wake, p = .pending wake := by
  induction h with
  | unpolled => exact ⟨rfl, fun p hp => absurd hp List.not_mem_nil⟩
  | again h now deadline ih =>
    obtain ⟨rfl, hpulls⟩ := ih
    refine ⟨rfl, fun p hp => ?_⟩
    rcases List.mem_append.1 hp with hp | hp
    · exact hpulls p hp
    · rw [List.mem_singleton.1 hp, pull, held]
      split
      · exact .inl rfl
      · exact .inr ⟨_, rfl⟩

end Body

namespace Memory

/-! ### Deeds -/

/-- What can be done to a memory transport. -/
inductive Deed where
  /-- A failure is injected into the request with this number. -/
  | inject (number : Nat) (i : Injection)
  /-- A failure is injected into the next request. -/
  | injectNext (i : Injection)
  /-- Every URL but this one is rejected from now on. -/
  | acceptOnly (url : String)
  /-- A request arrives. -/
  | send (now : Nat) (call : Call)
  /-- The answer to the request in this place is collected; the first one is in place 0. -/
  | collect (place : Nat)
  /-- The response to the request in this place is polled. -/
  | poll (place now deadline : Nat)
  /-- The response to the request in this place is dropped. -/
  | drop (place : Nat)

/-- What a request has come to. -/
inductive Reply where
  /-- The metadata of the object. -/
  | metadata (p : Probe)
  /-- A failure. -/
  | failed (f : Failure)
  /-- A response, with what its polls have yielded, and its rest unless it was dropped. -/
  | response (pulls : List Pull) (rest : Option Body)

/-- A request that has arrived, with what it has come to if its answer was collected. -/
structure Request where
  /-- The request as it was received. -/
  ticket : Ticket
  /-- What it has come to. -/
  reply : Option Reply

/-- Is this a response that was not dropped? -/
def Reply.isOpen : Reply → Bool
  | .response _ rest => rest.isSome
  | .metadata _ | .failed _ => false

/-- Is the response to this request open? -/
def Request.isOpen (r : Request) : Bool := r.reply.any Reply.isOpen

/-- A memory transport and its requests, in the order in which they arrived. -/
structure Traffic where
  /-- What the transport keeps in mind. -/
  state : State
  /-- The requests. -/
  requests : List Request

namespace Traffic

/-- Nothing has happened. -/
def fresh : Traffic := ⟨.fresh, []⟩

/-- The responses that are open. -/
def alive (t : Traffic) : Nat := t.requests.countP Request.isOpen

/-- The request in this place now stands like this. -/
def answer (t : Traffic) (place : Nat) (s : State) (ticket : Ticket) (reply : Reply) : Traffic :=
  ⟨s, t.requests.set place ⟨ticket, some reply⟩⟩

end Traffic

/-- Collects the answer to a request. -/
def reply (store : Store) (ticket : Ticket) (s : State) : Reply × State :=
  match ticket.call with
  | .probe _ =>
    match probed store ticket s with
    | .ok p => (.metadata p, s)
    | .error f => (.failed f, s)
  | .openRange _ _ =>
    match opened store ticket s with
    | (.ok body, s, _) => (.response [] (some body), s)
    | (.error f, s, _) => (.failed f, s)

/-- Does a deed. What cannot be done leaves everything as it is: an answer is collected only once,
and only an open response can be polled or dropped. -/
def act (store : Store) : Deed → Traffic → Traffic
  | .inject number i, t => { t with state := t.state.inject number i }
  | .injectNext i, t => { t with state := t.state.injectNext i }
  | .acceptOnly url, t => { t with state := t.state.acceptOnly url }
  | .send now call, t =>
    let (ticket, s, _) := receive store now call t.state
    ⟨s, t.requests ++ [⟨ticket, none⟩]⟩
  | .collect place, t =>
    match t.requests[place]? with
    | some ⟨ticket, none⟩ =>
      let (reply, s) := reply store ticket t.state
      t.answer place s ticket reply
    | _ => t
  | .poll place now deadline, t =>
    match t.requests[place]? with
    | some ⟨ticket, some (.response pulls (some body))⟩ =>
      let (p, rest) := body.pull now deadline
      t.answer place t.state ticket (.response (pulls ++ [p]) (some rest))
    | _ => t
  | .drop place, t =>
    match t.requests[place]? with
    | some ⟨ticket, some (.response pulls (some _))⟩ =>
      t.answer place t.state.closing ticket (.response pulls none)
    | _ => t

/-- Does all deeds, of which the latest one is the first in the list. -/
def run (store : Store) : List Deed → Traffic
  | [] => .fresh
  | d :: past => act store d (run store past)

/-! ### Looking back -/

/-- How many requests have arrived. -/
def sends (deeds : List Deed) : Nat := deeds.countP fun | .send _ _ => true | _ => false

/-- The failure that was last injected into the request with this number, unless the request has
arrived since then. -/
def waiting (number : Nat) : List Deed → Option Injection
  | [] => none
  | .inject other i :: past => if other = number then some i else waiting number past
  | .injectNext i :: past => if sends past + 1 = number then some i else waiting number past
  | .send _ _ :: past => if sends past + 1 = number then none else waiting number past
  | .acceptOnly _ :: past | .collect _ :: past | .poll _ _ _ :: past | .drop _ :: past =>
    waiting number past

namespace State

/-- The failure that waits for the request with this number. -/
def awaits (s : State) (number : Nat) : Option Injection :=
  (s.injections.find? fun e => e.1 == number).map Prod.snd

end State

/-! ### What collecting, polling and dropping leave -/

/-- The response to a request is cut from what its range and its failure ask for, and has been
polled as often as it says. -/
def Request.Served (store : Store) (r : Request) : Prop :=
  ∀ pulls rest, r.reply = some (.response pulls rest) →
    ∃ url range last, r.ticket.call = .openRange url range ∧
      (∀ code, r.ticket.injection ≠ some (.status code)) ∧
      (body store range r.ticket.injection).Polled pulls last ∧ ∀ b, rest = some b → b = last

/-- Whether a response was open before and is open now, with what the transport keeps in mind. -/
inductive Counted : Bool → Bool → State → State → Prop
  /-- Nothing is opened or closed. -/
  | kept (o : Bool) (s : State) : Counted o o s s
  /-- The response is opened. -/
  | opens (s : State) : Counted false true s s.opening
  /-- It is closed. -/
  | closes (s : State) : Counted true false s s.closing

/-- What collecting, polling and dropping can leave. -/
inductive Touched (store : Store) (t : Traffic) : Traffic → Prop
  /-- Everything is as before. -/
  | nothing : Touched store t t
  /-- One request has come to something else. -/
  | answer {place : Nat} {r : Request} {s : State} {reply : Reply}
      (hplace : t.requests[place]? = some r) (hcounted : Counted r.isOpen reply.isOpen t.state s)
      (hserved : r.Served store → Request.Served store ⟨r.ticket, some reply⟩) :
      Touched store t (t.answer place s r.ticket reply)

/-- Deeds that neither inject nor reject anything and are no new requests. -/
def Deed.Touches : Deed → Prop
  | .collect _ | .poll _ _ _ | .drop _ => True
  | .inject _ _ | .injectNext _ | .acceptOnly _ | .send _ _ => False

variable {store : Store} {t t' : Traffic} {d : Deed}

theorem answered_eq_ok {ticket : Ticket} {s : State} {i : Option Injection}
    (h : answered ticket s = .ok i) :
    i = ticket.injection ∧ s.Accepts (urlOf ticket.call) ∧ ∀ code, i ≠ some (.status code) := by
  simp only [answered] at h
  split at h
  · cases h
  · rename_i haccepted
    have haccepts : s.Accepts (urlOf ticket.call) := fun other hother => by
      simpa [hother] using haccepted
    split at h
    · cases h
    · rename_i hi
      cases h
      exact ⟨rfl, haccepts, hi⟩

theorem opened_eq_ok {ticket : Ticket} {s s' : State} {b : Body} {notices : List Notice}
    (h : opened store ticket s = (.ok b, s', notices)) :
    ∃ url range, ticket.call = .openRange url range ∧ s.Accepts url ∧
      (∀ code, ticket.injection ≠ some (.status code)) ∧ range.start < store.data.length ∧
      isReversed range = false ∧ b = body store range ticket.injection ∧ s' = s.opening := by
  unfold opened at h
  split at h
  · cases h
  · cases h
  · rename_i url range i hcall hanswered
    obtain ⟨rfl, haccepts, hstatus⟩ := answered_eq_ok hanswered
    split at h
    · cases h
    · split at h
      · cases h
      · rename_i hstart hreversed
        cases h
        rw [hcall] at haccepts
        exact ⟨url, range, hcall, haccepts, hstatus, Nat.not_le.1 hstart,
          Bool.not_eq_true _ ▸ hreversed, rfl, rfl⟩

theorem opened_eq_error {ticket : Ticket} {s s' : State} {f : Failure} {notices : List Notice}
    (h : opened store ticket s = (.error f, s', notices)) : s' = s := by
  unfold opened at h
  split at h
  · cases h
    rfl
  · cases h
    rfl
  · split at h
    · cases h
      rfl
    · split at h
      · cases h
        rfl
      · cases h

theorem reply_counted {ticket : Ticket} {s : State} :
    Counted false (reply store ticket s).1.isOpen s (reply store ticket s).2 ∧
      Request.Served store ⟨ticket, some (reply store ticket s).1⟩ := by
  unfold reply
  split
  · split <;> exact ⟨.kept false s, fun pulls rest h => by cases h⟩
  · split
    · rename_i b s' notices hopened
      obtain ⟨url, range, hcall, -, hstatus, -, -, rfl, rfl⟩ := opened_eq_ok hopened
      refine ⟨.opens s, fun pulls rest h => ?_⟩
      cases h
      exact ⟨url, range, _, hcall, hstatus, .unpolled, fun b hb => (Option.some.inj hb).symm⟩
    · rename_i f s' notices hopened
      obtain rfl := opened_eq_error hopened
      exact ⟨.kept false s', fun pulls rest h => by cases h⟩

/-- What collecting, polling and dropping leave of a transport. -/
theorem touched_act (h : d.Touches) : Touched store t (act store d t) := by
  cases d with
  | inject _ _ | injectNext _ | acceptOnly _ | send _ _ => exact absurd h id
  | collect place =>
    rw [act]
    split
    · rename_i ticket hplace
      exact .answer hplace reply_counted.1 fun _ => reply_counted.2
    · exact .nothing
  | poll place now deadline =>
    rw [act]
    split
    · rename_i ticket pulls b hplace
      refine .answer hplace (.kept true _) fun hserved pulls' rest' h => ?_
      obtain ⟨url, range, last, hcall, hstatus, hpolled, hlast⟩ := hserved pulls (some b) rfl
      cases h
      obtain rfl := hlast b rfl
      exact ⟨url, range, _, hcall, hstatus, hpolled.again now deadline,
        fun b' hb => (Option.some.inj hb).symm⟩
    · exact .nothing
  | drop place =>
    rw [act]
    split
    · rename_i ticket pulls b hplace
      refine .answer hplace (.closes _) fun hserved pulls' rest' h => ?_
      obtain ⟨url, range, last, hcall, hstatus, hpolled, -⟩ := hserved pulls (some b) rfl
      cases h
      exact ⟨url, range, last, hcall, hstatus, hpolled, fun b' hb => nomatch hb⟩
    · exact .nothing

/-! ### The state after all deeds -/

theorem Counted.memory {o o' : Bool} {s s' : State} (h : Counted o o' s s') :
    s'.injections = s.injections ∧ s'.requests = s.requests ∧ s'.accepted = s.accepted := by
  cases h <;> exact ⟨rfl, rfl, rfl⟩

theorem Touched.memory (h : Touched store t t') :
    t'.state.injections = t.state.injections ∧ t'.state.requests = t.state.requests ∧
      t'.state.accepted = t.state.accepted := by
  cases h with
  | nothing => exact ⟨rfl, rfl, rfl⟩
  | answer _ hcounted _ => exact hcounted.memory

theorem Touched.awaits (h : Touched store t t') (number : Nat) :
    t'.state.awaits number = t.state.awaits number := by
  rw [State.awaits, State.awaits, h.memory.1]

theorem Touched.tickets (h : Touched store t t') :
    t'.requests.map Request.ticket = t.requests.map Request.ticket := by
  cases h with
  | nothing => rfl
  | @answer place r _ _ hplace _ _ =>
    obtain ⟨hlt, rfl⟩ := List.getElem?_eq_some_iff.1 hplace
    rw [Traffic.answer, List.map_set, ← List.getElem_map Request.ticket]
    · exact List.set_getElem_self _
    · rwa [List.length_map]

theorem Counted.alive {o o' : Bool} {s s' : State} (h : Counted o o' s s')
    (hpos : o = true → 0 < s.alive) :
    s'.alive = s.alive - (if o = true then 1 else 0) + if o' = true then 1 else 0 := by
  cases h with
  | kept o s =>
    split
    · have := hpos ‹_›
      omega
    · rfl
  | opens s => simp [State.opening]
  | closes s => simp [State.closing]

theorem Counted.peak {o o' : Bool} {s s' : State} (h : Counted o o' s s')
    (hle : s.alive ≤ s.peak) : s'.peak = max s.peak s'.alive := by
  cases h with
  | kept o s => exact (Nat.max_eq_left hle).symm
  | opens s => rfl
  | closes s => exact (Nat.max_eq_left (Nat.le_trans (Nat.sub_le _ _) hle)).symm

theorem Touched.alive (h : Touched store t t') (ht : t.state.alive = t.alive) :
    t'.state.alive = t'.alive := by
  cases h with
  | nothing => exact ht
  | @answer place r s reply hplace hcounted _ =>
    obtain ⟨hlt, rfl⟩ := List.getElem?_eq_some_iff.1 hplace
    rw [Traffic.answer, Traffic.alive, List.countP_set hlt, hcounted.alive, ht]
    · rfl
    · intro hopen
      rw [ht]
      exact List.countP_pos_iff.2 ⟨_, List.getElem_mem hlt, hopen⟩

theorem Touched.peak (h : Touched store t t') (ht : t.state.alive ≤ t.state.peak) :
    t'.state.peak = max t.state.peak t'.state.alive := by
  cases h with
  | nothing => exact (Nat.max_eq_left ht).symm
  | answer _ hcounted _ => exact hcounted.peak ht

theorem alive_run (store : Store) (deeds : List Deed) :
    (run store deeds).state.alive = (run store deeds).alive := by
  induction deeds with
  | nil => rfl
  | cons d past ih =>
    cases d with
    | inject number i | injectNext i | acceptOnly url => exact ih
    | send now call =>
      rw [run, act, Traffic.alive, List.countP_append]
      exact ih
    | collect place | poll place now deadline | drop place =>
      exact (touched_act (by trivial)).alive ih

theorem peak_cons (d : Deed) (past : List Deed)
    (hle : (run store past).state.alive ≤ (run store past).state.peak) :
    (run store (d :: past)).state.peak =
      max (run store past).state.peak (run store (d :: past)).state.alive := by
  cases d with
  | inject number i | injectNext i | acceptOnly url | send now call =>
    exact (Nat.max_eq_left hle).symm
  | collect place | poll place now deadline | drop place =>
    exact (touched_act (by trivial)).peak hle

theorem alive_le_peak (store : Store) (deeds : List Deed) :
    (run store deeds).state.alive ≤ (run store deeds).state.peak := by
  induction deeds with
  | nil => exact Nat.le_refl _
  | cons d past ih =>
    rw [peak_cons d past ih]
    exact Nat.le_max_right _ _

theorem isGreatest_peak (store : Store) (deeds : List Deed) :
    IsGreatest {n | ∃ past, past <:+ deeds ∧ n = (run store past).alive}
      (run store deeds).state.peak := by
  induction deeds with
  | nil =>
    refine ⟨⟨[], List.suffix_refl _, rfl⟩, ?_⟩
    rintro n ⟨past, hpast, rfl⟩
    rw [List.suffix_nil.1 hpast]
    exact Nat.le_refl _
  | cons d deeds ih =>
    obtain ⟨⟨past, hpast, hpeak⟩, hbound⟩ := ih
    have hcons := peak_cons d deeds (alive_le_peak store deeds)
    rw [alive_run] at hcons
    constructor
    · rcases Nat.le_total (run store (d :: deeds)).alive (run store deeds).state.peak with h | h
      · exact ⟨past, hpast.trans (List.suffix_cons _ _), by rw [hcons, Nat.max_eq_left h, hpeak]⟩
      · exact ⟨d :: deeds, List.suffix_refl _, by rw [hcons, Nat.max_eq_right h]⟩
    · rintro n ⟨past, hpast, rfl⟩
      rw [hcons]
      rcases List.suffix_cons_iff.1 hpast with rfl | hpast
      · exact Nat.le_max_right _ _
      · exact Nat.le_trans (hbound ⟨past, hpast, rfl⟩) (Nat.le_max_left _ _)

/-! ### What responses deliver -/

/-- What a request for a URL that is accepted comes to. -/
inductive Answers (store : Store) (ticket : Ticket) : Reply → Prop
  /-- The status that was injected. -/
  | status {code : Nat} (hi : ticket.injection = some (.status code)) :
      Answers store ticket (.failed (.status code (urlOf ticket.call)))
  /-- A probe is disturbed by every other failure. -/
  | disturbed {url : String} {i : Injection} (hcall : ticket.call = .probe url)
      (hi : ticket.injection = some i) (hstatus : ∀ code, i ≠ .status code) :
      Answers store ticket (.failed (.network ("injected " ++ i.text ++ " during probe")))
  /-- Undisturbed, it gets the size of the object. -/
  | metadata {url : String} (hcall : ticket.call = .probe url) (hi : ticket.injection = none) :
      Answers store ticket
        (.metadata ⟨store.data.length, some ("\"" ++ Text.hex store.data.length ++ "\""), none⟩)
  /-- The range starts past the object. -/
  | outside {url : String} {range : ByteRange} (hcall : ticket.call = .openRange url range)
      (hstatus : ∀ code, ticket.injection ≠ some (.status code))
      (hstart : store.data.length ≤ range.start) :
      Answers store ticket (.failed (.status 416 url))
  /-- The range ends before it starts. -/
  | reversed {url : String} {range : ByteRange} {stop : Nat}
      (hcall : ticket.call = .openRange url range)
      (hstatus : ∀ code, ticket.injection ≠ some (.status code))
      (hstart : range.start < store.data.length) (hstop : range.stop = some stop)
      (hlt : stop < range.start) : Answers store ticket (.failed (crashed range))
  /-- A response, which nobody has polled so far. -/
  | response {url : String} {range : ByteRange} (b : Body)
      (hcall : ticket.call = .openRange url range)
      (hstatus : ∀ code, ticket.injection ≠ some (.status code))
      (hstart : range.start < store.data.length)
      (hstop : ∀ stop, range.stop = some stop → range.start ≤ stop) :
      Answers store ticket (.response [] (some b))

variable {ticket : Ticket} {s : State}

/-- Two responses that overlap in time, of which the first one is dropped. -/
example :
    (run fiveBytes [.drop 0, .collect 1, .collect 0,
      .send 0 (.openRange "https://example.com/a.bin" (.between 1 3)),
      .send 0 (.openRange "https://example.com/a.bin" (.between 0 5))]).state.peak = 2 := by
  rfl

end Memory

end RemoteFile
