import Mathlib.Data.List.Dedup
import RemoteFile.Proofs.Fetch.Streams
import RemoteFile.Proofs.File.Bytes
import RemoteFile.Proofs.File.Sound
import RemoteFile.Proofs.Operation.Course

/-!
# Sequential streams keep their connections

Reads of a file are made one after the other, each on behalf of one of several streams, and each
stream reads forward with small gaps. Over a transport that serves every range in full, each stream
opens one connection with its first read and reads on it from then on, in whatever order the streams
take their turns, as long as there are no more streams than connections, no connection becomes
stale, and no renewal of the URL fails.

Main statements:

* `FileRead.Stands.step` : a turn of a read goes on as it should, or yields what was wanted.
* `FileRead.InOrder.of_sequential` : what holds after any number of reads.
* `FileRead.streams_keep_connections` : the same for a file, from when it is opened on.
-/

namespace RemoteFile

open ReadStream

variable {σ τ : Type} {s : Setting σ τ} {shift : σ → σ → Prop} {data : List UInt8}
  {v : Service s.net shift data} {reads : List (Nat × Wanted)} {i : Nat} {k : Wanted}
  {w w' w₀ : World σ}

theorem Operation.next?_of_idle {α β : Type} {work : Attempts (World σ) α β} {o : Operation α}
    {t : Turn (Operation α) (Except Failure β)} (ha : o.attempt? = none) (hr : o.renewal? = none)
    (h : o.step s work w = (t, w')) : ∃ o', t.next? = some o' := by
  obtain ⟨b, phase⟩ := o
  cases stage h with
  | begins | nears | rests | wakes => exact ⟨_, rfl⟩
  | refreshes | refreshed | stale | renews | renewed | unrenewed => cases hr
  | works | succeeds | breaks | exhausts | rejects | backsOff => cases ha

/-! ### Reads through the pool -/

namespace PoolRead

variable {p : PoolRead τ} {t : Turn (PoolRead τ) (Except Failure (List UInt8))}

/-- Where a read stands: without an attempt, it has not got a connection. -/
def Stands (s : Setting σ τ) (reads : List (Nat × Wanted)) (i : Nat) (k : Wanted) (w : World σ)
    (p : PoolRead τ) : Prop :=
  p.attempt?.elim (w.Holds s (.resting s.size reads)) (Fetch.Stands s reads i k w)

theorem stands_of_attempt {f : Fetch τ} (hp : p.attempt? = some f) :
    p.Stands s reads i k w ↔ f.Stands s reads i k w := by
  rw [Stands, hp]
  exact .rfl

theorem stands_of_none (hp : p.attempt? = none) :
    p.Stands s reads i k w ↔ w.Holds s (.resting s.size reads) := by
  rw [Stands, hp]
  exact .rfl

/-- **A read goes on as it should, or succeeds with all that was wanted.** -/
theorem Stands.step (hstands : p.Stands s reads i k w) (hd : Due v reads i k) (hw : w.Sound v)
    (hsound : p.Sound v k.offset (FileRead.available s.size k.offset k.len) w)
    (hfresh : ∀ f, p.attempt? = some f → f.phase = .looking →
      w.pool.stale s.options.pool w.now = [])
    (hrenews : p.operation.renewal? ≠ none → t.failed = false) (h : p.step s w = (t, w')) :
    (∃ p', t.next? = some p' ∧ p'.Stands s reads i k w') ∨
      ∃ bytes, t = .done (.ok bytes) ∧
        bytes.length = FileRead.available s.size k.offset k.len ∧
        w'.Holds s (.resting s.size ((i, k) :: reads)) := by
  have hgoes : ∀ {f tf w₁}, p.attempt? = some f → f.step s w = (tf, w₁) →
      Fetch.GoesOn s reads i k tf w₁ := fun hp hf =>
    ((stands_of_attempt hp).1 hstands).step hd hw (hsound.attempt _ hp) (hfresh _ hp) hf
  cases turned h with
  | aside hp hbeside hbytes hnext hend =>
    have hrest := ((stands_of_none hp).1 hstands).beside hbeside (congrArg Prod.snd hbytes)
    have hstays : ∃ p', t.next? = some p' := by
      cases hr : p.operation.renewal? with
      | none =>
        obtain ⟨ot, hstep, ht, -⟩ := next?_step h
        obtain ⟨o', ho'⟩ := Operation.next?_of_idle hp hr hstep
        exact ⟨_, ht.trans (congrArg _ ho')⟩
      | some r =>
        -- a renewal that ends has not failed, and so the read does not end with it
        have hgood := hrenews (hr ▸ Option.some_ne_none r)
        cases t with
        | moved p' | waits p' wake => exact ⟨p', rfl⟩
        | done b =>
          cases b with
          | ok bytes => exact absurd rfl (hend bytes)
          | error e => cases hgood
    obtain ⟨p', hp'⟩ := hstays
    refine .inl ⟨p', hp', ?_⟩
    rw [hp', Option.bind_some] at hnext
    cases hattempt : p'.attempt? with
    | none => exact (stands_of_none hattempt).2 hrest
    | some f => exact (stands_of_attempt hattempt).2 (.looking (hnext f hattempt) hrest)
  | goesOn hp hf htf hnext hend =>
    obtain ⟨p', hp', hattempt⟩ := Option.bind_eq_some_iff.1 hnext
    exact .inl ⟨p', hp', (stands_of_attempt hattempt).2 ((hgoes hp hf).stands htf)⟩
  | @succeeds w' f bytes hp hf => exact .inr ⟨bytes, rfl, (hgoes hp hf).rests⟩
  | fails hp hf => exact absurd (hgoes hp hf) Fetch.not_goesOn_error

theorem Stands.pass (h : p.Stands s reads i k w) (millis : Nat) :
    p.Stands s reads i k (w.pass millis) := by
  cases hp : p.attempt? with
  | none => exact (stands_of_none hp).2 (((stands_of_none hp).1 h).pass millis)
  | some f => exact (stands_of_attempt hp).2 (((stands_of_attempt hp).1 h).pass millis)

theorem Stands.shifted (h : p.Stands s reads i k w) (net : σ) :
    p.Stands s reads i k { w with net := net } := by
  cases hp : p.attempt? with
  | none => exact (stands_of_none hp).2 (((stands_of_none hp).1 h).shifted net)
  | some f => exact (stands_of_attempt hp).2 (((stands_of_attempt hp).1 h).shifted net)

theorem Stands.wanted (h : p.Stands s reads i k w) : w.cancelled = false := by
  cases hp : p.attempt? with
  | none => exact ((stands_of_none hp).1 h).wanted
  | some f =>
    cases (stands_of_attempt hp).1 h with
    | looking _ hw | opening _ _ _ _ hw | reading _ _ _ _ _ hw => exact hw.wanted

end PoolRead

/-! ### Reads of a file -/

namespace FileRead

variable {r : FileRead τ} {t : Turn (FileRead τ) (Except Failure (List UInt8))}

/-- The read looks for a connection. -/
def Looks (r : FileRead τ) : Prop := ∃ f, r.attempt? = some f ∧ f.phase = .looking

/-- The read waits for the URL to be renewed. -/
def Renews (r : FileRead τ) : Prop :=
  ∃ pieces filled next, r.phase = .filling pieces filled next ∧ next.operation.renewal? ≠ none

/-- Where a read of a file stands: it is about to begin, or makes its only read through the pool. -/
inductive Stands (s : Setting σ τ) (reads : List (Nat × Wanted)) (i : Nat) (k : Wanted)
    (w : World σ) (r : FileRead τ) : Prop
  /-- It is about to begin. -/
  | starting (hr : r.phase = .starting) (hw : w.Holds s (.resting s.size reads))
  /-- It makes its only read through the pool. -/
  | filling {next : PoolRead τ} (hr : r.phase = .filling [] 0 next)
      (hnext : next.Stands s reads i k w)

theorem available_pos (hd : Due v reads i k) : 0 < available s.size k.offset k.len := by
  have hinside := hd.allows.inside
  have hwanted := hd.allows.wanted
  rw [available]
  omega

/-- **A turn of a read goes on as it should, or the read succeeds**, if no connection is stale when
it looks for one, and if the URL can be renewed where that is due. -/
theorem Stands.step (hstands : r.Stands s reads i k w) (hd : Due v reads i k) (hw : w.Sound v)
    (hsound : r.Sound v k w) (hfresh : r.Looks → w.pool.stale s.options.pool w.now = [])
    (hrenews : r.Renews → t.failed = false) (h : r.step s w = (t, w')) :
    (∃ r', t.next? = some r' ∧ r'.Stands s reads i k w') ∨
      ∃ bytes, t = .done (.ok bytes) ∧ w'.Holds s (.resting s.size ((i, k) :: reads)) := by
  have hpos := available_pos hd
  cases hstands with
  | starting hr hrest =>
    have hinside := hd.allows.inside
    simp only [FileRead.step, hr, begin, hrest.opens, hsound.offset_eq, hsound.starting hr,
      Bool.false_eq_true, if_false, if_neg (Nat.not_lt_of_le hinside.le), if_neg hpos.ne'] at h
    cases h
    exact .inl ⟨_, rfl, .filling rfl ((PoolRead.stands_of_none rfl).2 hrest)⟩
  | @filling next hr hnext =>
    have hfills := hsound.filling hr
    have hlen : r.len = available s.size k.offset k.len := by
      rw [hfills.len_eq, available, hd.size_eq]
    have hread := hfills.next
    rw [Nat.add_zero, Nat.sub_zero, hlen] at hread
    rw [step_of_filling hr hnext.wanted] at h
    rcases hp : next.step s w with ⟨tp, w₁⟩
    have hfresh' : ∀ f, next.attempt? = some f → f.phase = .looking →
        w.pool.stale s.options.pool w.now = [] :=
      fun f hf hlooks => hfresh ⟨f, (attempt?_of_filling hr).trans hf, hlooks⟩
    -- what fails in the pool fails here
    have hrenews' : next.operation.renewal? ≠ none → tp.failed = false := by
      intro hne
      have hgood := hrenews ⟨[], 0, next, hr, hne⟩
      cases tp with
      | moved | waits => rfl
      | done b =>
        cases b with
        | ok bytes => rfl
        | error e =>
          simp only [fill, hp] at h
          cases h
          exact hgood
    rcases hnext.step hd hw hread hfresh' hrenews' hp with
      ⟨p', hp', hstands'⟩ | ⟨bytes, rfl, hlength, hrest⟩
    · cases tp with
      | moved | waits =>
        simp only [fill, hp] at h
        cases h
        cases hp'
        exact .inl ⟨_, rfl, .filling rfl hstands'⟩
      | done b => cases hp'
    · have hne : bytes ≠ [] := List.ne_nil_of_length_pos (hlength ▸ hpos)
      have hall : r.len ≤ 0 + bytes.length := by
        rw [hlen, hlength, Nat.zero_add]
      simp only [fill, hp, extend, if_neg hne, if_pos hall] at h
      cases h
      exact .inr ⟨_, rfl, hrest.beside ((World.Beside.refl _).count fun _ => rfl) rfl⟩

theorem Stands.pass (h : r.Stands s reads i k w) (millis : Nat) :
    r.Stands s reads i k (w.pass millis) := by
  cases h with
  | starting hr hw => exact .starting hr (hw.pass millis)
  | filling hr hnext => exact .filling hr (hnext.pass millis)

theorem Stands.shifted (h : r.Stands s reads i k w) (net : σ) :
    r.Stands s reads i k { w with net := net } := by
  cases h with
  | starting hr hw => exact .starting hr (hw.shifted net)
  | filling hr hnext => exact .filling hr (hnext.shifted net)

/-! ### One read after the other -/

/-- What comes of reads that are made one at a time, each on behalf of the stream with the given
name, the latest first. Time passes, and the transport changes by itself. No connection is stale
when a read looks for one, and no renewal of the URL fails. The file stays open, and no read is
called off or dropped. -/
inductive Sequential (s : Setting σ τ) (shift : σ → σ → Prop) (w₀ : World σ) :
    List (Nat × Wanted) →
      Crowd (World σ) Wanted (FileRead τ) (Except Failure (List UInt8)) → Prop
  /-- Nothing is read. -/
  | nil : Sequential s shift w₀ [] (Crowd.empty w₀)
  /-- A read joins when no other one is under way. -/
  | joins {reads : List (Nat × Wanted)} {w : World σ}
      {rs : List (Wanted × Except Failure (List UInt8))} (i : Nat) (k : Wanted)
      (h : Sequential s shift w₀ reads ⟨w, [], rs⟩) :
      Sequential s shift w₀ ((i, k) :: reads) ⟨w, [(k, start k.offset k.len)], rs⟩
  /-- The read takes a turn. -/
  | turns {reads : List (Nat × Wanted)} {w w' : World σ} {k : Wanted} {r : FileRead τ}
      {t : Turn (FileRead τ) (Except Failure (List UInt8))}
      {rs : List (Wanted × Except Failure (List UInt8))}
      (h : Sequential s shift w₀ reads ⟨w, [(k, r)], rs⟩) (hstep : r.step s w = (t, w'))
      (hfresh : r.Looks → w.pool.stale s.options.pool w.now = [])
      (hrenews : r.Renews → t.failed = false) :
      Sequential s shift w₀ reads
        ⟨w', (t.next?.map (k, ·)).toList, (t.result?.map (k, ·)).toList ++ rs⟩
  /-- Time passes. -/
  | passes {reads : List (Nat × Wanted)} {w : World σ} {ts : List (Wanted × FileRead τ)}
      {rs : List (Wanted × Except Failure (List UInt8))} (millis : Nat)
      (h : Sequential s shift w₀ reads ⟨w, ts, rs⟩) :
      Sequential s shift w₀ reads ⟨w.pass millis, ts, rs⟩
  /-- The transport changes by itself. -/
  | shifts {reads : List (Nat × Wanted)} {w : World σ} {net : σ}
      {ts : List (Wanted × FileRead τ)} {rs : List (Wanted × Except Failure (List UInt8))}
      (h : Sequential s shift w₀ reads ⟨w, ts, rs⟩) (hs : shift w.net net) :
      Sequential s shift w₀ reads ⟨{ w with net := net }, ts, rs⟩

variable {c : Crowd (World σ) Wanted (FileRead τ) (Except Failure (List UInt8))}

/-- Reads that are made one at a time are reads that are made at any time. -/
theorem Sequential.reachable (info : FileInfo) (h : Sequential s shift w₀ reads c) :
    Crowd.Reachable (rules s info shift) (Crowd.empty w₀) c := by
  induction h with
  | nil => exact .refl _
  | joins i k h ih => exact ih.tail (.join _ [] _ k)
  | @turns reads w w' k r t rs h hstep hfresh hrenews ih =>
    have hdoes : Crowd.Does (rules s info shift) ⟨w, [(k, r)], rs⟩ (.turns k r t)
        ⟨w', [] ++ (t.next?.map (k, ·)).toList ++ [], (t.result?.map (k, ·)).toList ++ rs⟩ :=
      .turns [] [] rs k hstep
    rw [List.nil_append, List.append_nil] at hdoes
    exact ih.tail hdoes.step
  | passes millis h ih => exact ih.tail (.outside _ _ (.pass millis _))
  | shifts h hs ih => exact ih.tail (.outside _ _ (.shift _ hs))

/-- What holds after some reads, of which the latest may be under way. -/
inductive InOrder (v : Service s.net shift data) :
    List (Nat × Wanted) →
      Crowd (World σ) Wanted (FileRead τ) (Except Failure (List UInt8)) → Prop
  /-- No read is under way, and each stream below the end has its connection. -/
  | rests {reads : List (Nat × Wanted)} {w : World σ}
      {rs : List (Wanted × Except Failure (List UInt8))} (hw : w.Sound v)
      (hrest : w.Holds s (.resting s.size reads)) (hrs : rs.map Prod.fst = reads.map Prod.snd)
      (hmet : ∀ x ∈ rs, ∃ bytes, x.2 = .ok bytes ∧ x.1.Met data bytes) :
      InOrder v reads ⟨w, [], rs⟩
  /-- A read is under way. -/
  | reads {reads : List (Nat × Wanted)} {i : Nat} {k : Wanted} {w : World σ} {r : FileRead τ}
      {rs : List (Wanted × Except Failure (List UInt8))} (hw : w.Sound v) (hd : Due v reads i k)
      (hr : r.Sound v k w) (hstands : r.Stands s reads i k w)
      (hrs : rs.map Prod.fst = reads.map Prod.snd)
      (hmet : ∀ x ∈ rs, ∃ bytes, x.2 = .ok bytes ∧ x.1.Met data bytes) :
      InOrder v ((i, k) :: reads) ⟨w, [(k, r)], rs⟩

theorem InOrder.turn {rs : List (Wanted × Except Failure (List UInt8))}
    (h : InOrder v reads ⟨w, [(k, r)], rs⟩) (hstep : r.step s w = (t, w'))
    (hfresh : r.Looks → w.pool.stale s.options.pool w.now = [])
    (hrenews : r.Renews → t.failed = false) :
    InOrder v reads ⟨w', (t.next?.map (k, ·)).toList, (t.result?.map (k, ·)).toList ++ rs⟩ := by
  cases h with
  | reads hw hd hr hstands hrs hmet =>
    have hkeeps := sound_step hd.size_eq hw hr hstep
    rcases hstands.step hd hw hr hfresh hrenews hstep with ⟨r', hr', hstands'⟩ | ⟨bytes, rfl, hrest⟩
    · have hnone : t.result? = none := by
        cases t with
        | moved | waits => rfl
        | done b => cases hr'
      rw [hr', hnone]
      exact .reads hkeeps.world.sound hd (hkeeps.next r' hr') hstands' hrs hmet
    · refine .rests hkeeps.world.sound hrest (congrArg _ hrs) fun x hx => ?_
      rcases List.mem_cons.1 hx with rfl | hx
      · exact ⟨bytes, rfl, hkeeps.done bytes rfl⟩
      · exact hmet x hx

/-- **Everything is in order after any number of reads** that are made one at a time. -/
theorem InOrder.of_sequential (hsize : s.size = data.length)
    (hunlimited : s.options.pool.maxRangeLen = none) (hfull : v.Full s.options.timeouts)
    (hw : w₀.Sound v) (hrest : w₀.Holds s (.resting s.size []))
    (horder : Orderly s.size s.options.pool.maxSkip reads)
    (hroom : (after s.size reads).length ≤ s.options.pool.maxConns)
    (h : Sequential s shift w₀ reads c) : InOrder v reads c := by
  induction h with
  | nil => exact .rests hw hrest rfl nofun
  | @joins reads w rs i k h ih =>
    cases horder with
    | cons horder hallows =>
      have hbefore := ih horder ((length_after_le s.size reads i k).trans hroom)
      cases hbefore with
      | rests hw hrest hrs hmet =>
        exact .reads hw ⟨hsize, hunlimited, hfull, hallows, hroom⟩ (sound_start k w)
          (.starting rfl hrest) hrs hmet
  | turns h hstep hfresh hrenews ih => exact (ih horder hroom).turn hstep hfresh hrenews
  | @passes reads w ts rs millis h ih =>
    cases ih horder hroom with
    | rests hw hrest hrs hmet => exact .rests ⟨hw.net, hw.idle⟩ (hrest.pass millis) hrs hmet
    | reads hw hd hr hstands hrs hmet =>
      have honward : w.Onward v (w.pass millis) := ⟨.refl hw.net, hw.idle⟩
      exact .reads honward.sound hd (hr.onward honward) (hstands.pass millis) hrs hmet
  | @shifts reads w net ts rs h hs ih =>
    cases ih horder hroom with
    | rests hw hrest hrs hmet => exact .rests (hw.shifted hs).sound (hrest.shifted net) hrs hmet
    | reads hw hd hr hstands hrs hmet =>
      have honward := hw.shifted hs
      exact .reads honward.sound hd (hr.onward honward) (hstands.shifted net) hrs hmet

end FileRead

/-! ### From when a file is opened on -/

theorem File.holds_of_opening {net : σ} {url : String} {expiresAt : Option Int}
    {o : Crowd (World σ) Url (Opening τ) (Except Failure FileInfo)}
    (h : Crowd.Reachable (rules s shift) (Crowd.empty (World.fresh net url expiresAt)) o)
    (size : Nat) : o.world.Holds (s.ofSize size) (.resting size []) := by
  obtain ⟨hpool, hclosed, hcancelled, hopened, hreused, hevicted⟩ := File.unread_of_opening h
  have hbytes := File.bytes_of_opening h
  have hidle : o.world.pool.idle = [] := congrArg Pool.idle hpool
  exact
    { served := congrArg Pool.closed hpool
      opens := hclosed
      wanted := hcancelled
      idle := by
        rw [hidle]
        exact .refl _
      stop := by
        rw [hidle]
        exact nofun
      supplied := by
        rw [hidle]
        exact nofun
      live := congrArg Pool.live hpool
      nextId := congrArg Pool.nextId hpool
      opened := hopened
      reused := hreused
      evicted := hevicted
      dropped := congrArg Prod.snd hbytes }

namespace FileRead

/-- What there is after reads that were made one at a time, all of which have ended. -/
structure KeepsConnections (size : Nat) (data : List UInt8) (reads : List (Nat × Wanted))
    (c : Crowd (World σ) Wanted (FileRead τ) (Except Failure (List UInt8))) : Prop where
  /-- As many connections were opened as streams have started. -/
  opened : c.world.counters.connsOpened = (reads.map Prod.fst).dedup.length
  /-- Every other read has used one again. -/
  reused : c.world.counters.connsReused = reads.length - (reads.map Prod.fst).dedup.length
  /-- None was evicted. -/
  evicted : c.world.counters.connsEvicted = 0
  /-- The bytes of the gaps were dropped, and are counted in a word. -/
  dropped : c.world.counters.bytesDiscarded = gaps size reads % counterLimit
  /-- Each stream below the end has its connection, with the cursor where the stream has ended, and
  no other connection is idle. -/
  idle : (c.world.pool.idle.map fun d => (d.id, d.cursor)).Perm (berths size (after size reads))
  /-- No two streams share one. -/
  distinct : ((after size reads).map conn).Nodup
  /-- Connections reach to the end of the object. -/
  stop : ∀ d ∈ c.world.pool.idle, d.stop = size
  /-- All reads have ended. -/
  ended : c.results.map Prod.fst = reads.map Prod.snd
  /-- They have yielded what was wanted of the object. -/
  met : ∀ x ∈ c.results, ∃ bytes, x.2 = .ok bytes ∧ x.1.Met data bytes

/-- **Sequential streams keep their connections.**  Let a file be opened over a transport that
serves every range in full and within the limits, where requests reach to the end of the object. Let
reads of it be made one at a time on behalf of any streams, no more than there may be connections,
in any order, such that each read is within the object, goes on where its stream has ended or a
little later, and does not lie that near to the end of another stream. If no connection is stale
when a read looks for one and no renewal of the URL fails, then every stream opens one connection
and keeps it. -/
theorem streams_keep_connections (v : Service s.net shift data) {net : σ} {url : String}
    {expiresAt : Option Int} {o : Crowd (World σ) Url (Opening τ) (Except Failure FileInfo)}
    {u : Url} {info : FileInfo}
    {c : Crowd (World σ) Wanted (FileRead τ) (Except Failure (List UInt8))}
    (hgood : v.good net) (hfull : v.Full s.options.timeouts)
    (hunlimited : s.options.pool.maxRangeLen = none)
    (hopen : Crowd.Reachable (File.rules s shift) (Crowd.empty (World.fresh net url expiresAt)) o)
    (hinfo : (u, .ok info) ∈ o.results)
    (hrun : Sequential (s.ofSize info.size) shift o.world reads c)
    (horder : Orderly info.size s.options.pool.maxSkip reads)
    (hroom : (reads.map Prod.fst).dedup.length ≤ s.options.pool.maxConns) (hends : c.tasks = []) :
    KeepsConnections info.size data reads c := by
  have h₀ : (World.fresh net url expiresAt).Sound v :=
    ⟨hgood, fun d hd => absurd hd List.not_mem_nil⟩
  obtain ⟨hworld, hsizes⟩ := File.size_of_opened h₀ hopen
  rw [← length_after info.size] at hroom
  -- the same transport serves the file once its size is known
  have hinorder : InOrder (s := s.ofSize info.size) v reads c :=
    .of_sequential (hsizes u info hinfo) hunlimited hfull ⟨hworld.net, hworld.idle⟩
      (File.holds_of_opening hopen info.size) horder hroom hrun
  cases hinorder with
  | rests hw hrest hrs hmet =>
    exact
      { opened := hrest.opened.trans (length_after _ _)
        reused := by
          rw [← length_after info.size]
          exact hrest.reused
        evicted := hrest.evicted
        dropped := hrest.dropped
        idle := hrest.idle
        distinct := nodup_conn_after _ _
        stop := hrest.stop
        ended := hrs
        met := hmet }
  | reads => cases hends

/-- No connection is stale, and no renewal is under way. -/
def isCalm (s : Setting σ τ) (r : FileRead τ) (w : World σ) : Bool :=
  (w.pool.stale s.options.pool w.now).isEmpty &&
    match r.phase with
    | .starting => true
    | .filling _ _ next => next.operation.renewal?.isNone

/-- What a read comes to that ends within so many turns, if it is calm in all of them. -/
def finish (s : Setting σ τ) :
    Nat → FileRead τ → World σ → Option (Except Failure (List UInt8) × World σ)
  | 0, _, _ => none
  | n + 1, r, w =>
    if isCalm s r w then
      match r.step s w with
      | (.done b, w') => some (b, w')
      | (.moved r', w') | (.waits r' _, w') => finish s n r' w'
    else none

theorem Sequential.turn_of_isCalm {rs : List (Wanted × Except Failure (List UInt8))}
    (h : Sequential s shift w₀ reads ⟨w, [(k, r)], rs⟩) (hcalm : isCalm s r w = true)
    (hstep : r.step s w = (t, w')) :
    Sequential s shift w₀ reads
      ⟨w', (t.next?.map (k, ·)).toList, (t.result?.map (k, ·)).toList ++ rs⟩ := by
  rw [isCalm, Bool.and_eq_true, List.isEmpty_iff] at hcalm
  refine h.turns hstep (fun _ => hcalm.1) ?_
  rintro ⟨pieces, filled, next, hr, hne⟩
  rw [hr] at hcalm
  exact absurd (Option.isNone_iff_eq_none.1 hcalm.2) hne

theorem Sequential.finish {rs : List (Wanted × Except Failure (List UInt8))}
    {b : Except Failure (List UInt8)} (n : Nat)
    (h : Sequential s shift w₀ reads ⟨w, [(k, r)], rs⟩)
    (hfinish : FileRead.finish s n r w = some (b, w')) :
    Sequential s shift w₀ reads ⟨w', [], (k, b) :: rs⟩ := by
  induction n generalizing r w with
  | zero => cases hfinish
  | succ n ih =>
    rw [FileRead.finish] at hfinish
    split at hfinish
    · rename_i hcalm
      split at hfinish <;> rename_i hstep
      · cases hfinish
        exact h.turn_of_isCalm hcalm hstep
      · exact ih (h.turn_of_isCalm hcalm hstep) hfinish
      · exact ih (h.turn_of_isCalm hcalm hstep) hfinish
    · cases hfinish

/-- Plays out reads one after the other, the latest first, each within so many turns. -/
def readAll (s : Setting σ τ) (n : Nat) (w₀ : World σ) :
    List (Nat × Wanted) →
      Option (Crowd (World σ) Wanted (FileRead τ) (Except Failure (List UInt8)))
  | [] => some (Crowd.empty w₀)
  | (_, k) :: reads =>
    (readAll s n w₀ reads).bind fun c =>
      (finish s n (start k.offset k.len) c.world).map fun x => ⟨x.2, [], (k, x.1) :: c.results⟩

theorem sequential_of_readAll (shift : σ → σ → Prop) {n : Nat}
    (h : readAll s n w₀ reads = some c) :
    Sequential s shift w₀ reads c ∧ c.tasks = [] := by
  induction reads generalizing c with
  | nil =>
    cases h
    exact ⟨.nil, rfl⟩
  | cons read reads ih =>
    obtain ⟨i, k⟩ := read
    obtain ⟨⟨w, ts, rs⟩, hbefore, h⟩ := Option.bind_eq_some_iff.1 h
    obtain ⟨⟨b, w'⟩, hfinish, rfl⟩ := Option.map_eq_some_iff.1 h
    obtain ⟨hrun, rfl⟩ := ih hbefore
    exact ⟨(hrun.joins i k).finish n hfinish, rfl⟩

/-- The five bytes, of which one may be skipped, over two connections. -/
def fiveStreamed : Setting Unit Call :=
  { fiveBytes with options := { Options.standard with pool := ⟨2, 1, .ofSeconds 10, none⟩ } }

/-- The file of the five bytes is opened. -/
def openStreamed : Option (Crowd (World Unit) Url (Opening Call) (Except Failure FileInfo)) :=
  (Crowd.empty (World.fresh () "https://example.com/a.bin" none)).play
    (File.rules fiveStreamed fun _ _ => False) (.join fiveBytesUrl :: List.replicate 3 (.turn 0))

/-- One stream reads the first byte, and the third one after all; meanwhile another one reads the
last two. -/
def streamedReads : List (Nat × Wanted) := [(0, ⟨2, 1⟩), (1, ⟨4, 9⟩), (1, ⟨3, 1⟩), (0, ⟨0, 1⟩)]

theorem streamedReads_orderly : Orderly 5 1 streamedReads :=
  .cons (.cons (.cons (.cons .nil (by decide)) (by decide)) (by decide)) (by decide)

/-- Two connections serve the four reads and drop a byte; that of the first stream is still open. -/
theorem streams_keep_connections_for_two :
    ∃ o c, Crowd.Reachable (File.rules fiveStreamed fun _ _ => False)
        (Crowd.empty (World.fresh () "https://example.com/a.bin" none)) o ∧
      (fiveBytesUrl, .ok fiveBytesInfo) ∈ o.results ∧
      Sequential (fiveStreamed.ofSize 5) (fun _ _ => False) o.world streamedReads c ∧
      c.tasks = [] ∧ after 5 streamedReads = [⟨0, 1, 3⟩, ⟨1, 2, 5⟩] ∧
      c.world.counters.connsOpened = 2 ∧ c.world.counters.connsReused = 2 ∧
      c.world.counters.bytesDiscarded = 1 ∧
      c.world.pool.idle.map (fun d => (d.id, d.cursor)) = [(1, 3)] ∧
      KeepsConnections 5 [10, 11, 12, 13, 14] streamedReads c := by
  have hplay : (openStreamed.bind fun o =>
      (readAll (fiveStreamed.ofSize 5) 12 o.world streamedReads).map fun c => (o, c)).map (fun x =>
        (x.1.results, x.2.world.pool.idle.map fun d => (d.id, d.cursor))) =
      some ([(fiveBytesUrl, .ok fiveBytesInfo)], [(1, 3)]) := rfl
  obtain ⟨⟨o, c⟩, hread, hview⟩ := Option.map_eq_some_iff.1 hplay
  obtain ⟨_, hopen, hread⟩ := Option.bind_eq_some_iff.1 hread
  obtain ⟨_, hall, heq⟩ := Option.map_eq_some_iff.1 hread
  cases heq
  obtain ⟨hresults, hidle⟩ := Prod.mk.inj hview
  obtain ⟨_, ho⟩ := Crowd.path_of_play .nil hopen
  obtain ⟨hrun, hends⟩ := sequential_of_readAll (fun _ _ => False) hall
  have hinfo : (fiveBytesUrl, .ok fiveBytesInfo) ∈ o.results := by
    have hfirst : o.results = [(fiveBytesUrl, .ok fiveBytesInfo)] := hresults
    rw [hfirst]
    exact List.mem_cons_self
  have hkeeps := streams_keep_connections (Transport.promptService _ fun _ _ => False) trivial
    (Transport.full_prompt _ _ _) rfl ho.reachable hinfo hrun streamedReads_orderly (by decide)
    hends
  exact ⟨o, c, ho.reachable, hinfo, hrun, hends, by decide, hkeeps.opened, hkeeps.reused,
    hkeeps.dropped, hidle, hkeeps⟩

end FileRead

end RemoteFile
