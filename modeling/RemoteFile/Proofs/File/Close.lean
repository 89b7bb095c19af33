import RemoteFile.Proofs.File.Held
import RemoteFile.Proofs.Transport.Script

/-!
# Closing a file, and calling off its reads

Closing a file calls off its reads and closes its pool; reads can also be called off without that.
Either can happen at any moment, while reads wait for a slot, for a response, for the next chunk,
for a delay to be over or for a URL to be renewed. A read looks whether it was called off before it
looks at anything else, so that its next turn is its last one, whatever has become of its data.

Main statements:

* `FileRead.windsDown_of_reachable` : once reads are called off, nobody is asked for anything.
* `FileRead.sealed` : the reads of a closed file are called off, and its pool is closed.
* `FileRead.closing_calls_off` : what is true from then on.
-/

namespace RemoteFile

/-- Is the event something that is written to the log, and no call to anybody? -/
def Event.isNotice : Event → Bool
  | .notice _ => true
  | .call _ | .renewerCall | .sleep _ | .attempt _ _ => false

namespace World

variable {σ : Type} {w w₁ w' : World σ}

/-- What may be left of a file when a task is dropped: its flags and its idle connections are the
same, and nobody is asked for anything. -/
structure Sheds (w w' : World σ) : Prop where
  /-- Whether the file is closed. -/
  closed : w'.closed = w.closed
  /-- Whether reads are called off. -/
  cancelled : w'.cancelled = w.cancelled
  /-- The idle connections. -/
  idle : w'.pool.idle = w.pool.idle
  /-- The journal. -/
  tells : w.Tells Event.isNotice w'

theorem Sheds.refl (w : World σ) : w.Sheds w := ⟨rfl, rfl, rfl, .refl _ w⟩

/-- What may become of a file whose reads are called off: that stays so, the file stays closed if it
is, idle connections stay as they are until it is, and nobody is asked for anything. -/
structure WindsDown (w w' : World σ) : Prop where
  /-- Reads are called off. -/
  cancelled : w'.cancelled = true
  /-- The file stays closed. -/
  closed : w.closed = true → w'.closed = true
  /-- The idle connections. -/
  idle : w'.closed = false → w'.pool.idle = w.pool.idle
  /-- The journal. -/
  tells : w.Tells Event.isNotice w'

theorem WindsDown.refl (h : w.cancelled = true) : w.WindsDown w := ⟨h, id, fun _ => rfl, .refl _ w⟩

theorem WindsDown.trans (h : w.WindsDown w₁) (h' : w₁.WindsDown w') : w.WindsDown w' := by
  refine ⟨h'.cancelled, fun hc => h'.closed (h.closed hc), fun hopen => ?_, h.tells.trans h'.tells⟩
  have hbefore : w₁.closed = false := Bool.eq_false_iff.2 fun hc => by
    rw [h'.closed hc] at hopen
    cases hopen
  rw [h'.idle hopen, h.idle hbefore]

theorem Sheds.windsDown (h : w.Sheds w') (hc : w.cancelled = true) : w.WindsDown w' :=
  ⟨h.cancelled.trans hc, fun hclosed => h.closed.trans hclosed, fun _ => h.idle, h.tells⟩

theorem WindsDown.note (h : w.WindsDown w₁) (n : Notice) : w.WindsDown (w₁.note n) :=
  ⟨h.cancelled, h.closed, h.idle, h.tells.record rfl⟩

end World

/-! ### What is dropped -/

namespace Renewal

variable {σ : Type}

theorem sheds_drop (r : Renewal) (w : World σ) : w.Sheds (r.drop w) := by
  have hw := beside_drop r w
  exact ⟨hw.closed, hw.cancelled, congrArg Pool.idle hw.pool, .of_eq (journal_drop r w)⟩

end Renewal

namespace Fetch

variable {σ τ : Type}

theorem sheds_drop (s : Setting σ τ) (f : Fetch τ) (w : World σ) : w.Sheds (f.drop s w) := by
  unfold drop
  split
  · exact .refl w
  · exact .refl w
  · exact ⟨rfl, rfl, rfl, .of_eq rfl⟩
  · exact ⟨rfl, rfl, rfl, [_], rfl, by simp [Event.isNotice]⟩

theorem flags_step {s : Setting σ τ} {f : Fetch τ} {w w' : World σ}
    {t : Turn (Fetch τ) (Except Failure (List UInt8))} (h : f.step s w = (t, w')) :
    w'.closed = w.closed ∧ w'.cancelled = w.cancelled := by
  have hrequest : ∀ {w₁ : World σ}, f.request s w₁ = (t, w') →
      w'.closed = w₁.closed ∧ w'.cancelled = w₁.cancelled := by
    intro w₁ h
    simp only [request, World.issue_eq] at h
    cases h
    exact ⟨rfl, rfl⟩
  have hcollect : ∀ {ticket : τ} {b : Except Failure Body} {w₁ : World σ},
      w.collect s ticket = (b, w₁) → w₁.closed = w.closed ∧ w₁.cancelled = w.cancelled := by
    intro ticket b w₁ h
    rw [World.collect_eq] at h
    cases h
    exact ⟨rfl, rfl⟩
  have hsweep : (w.sweep s).closed = w.closed ∧ (w.sweep s).cancelled = w.cancelled := by
    rw [World.sweep_eq]
    exact ⟨rfl, rfl⟩
  cases turned h with
  | refused | rouses | dozes | expects | expires => exact ⟨rfl, rfl⟩
  | reuses | parks => exact hsweep
  | reserves _ _ _ hr | replaces _ _ _ hr =>
    have hsent := hrequest hr
    exact ⟨hsent.1.trans hsweep.1, hsent.2.trans hsweep.2⟩
  | denied _ hcol | opens _ hcol | wastes _ hcol =>
    have hcollected := hcollect hcol
    exact hcollected
  | reads _ hr | breaks _ hr =>
    have hw := Reading.beside_step hr
    exact ⟨hw.closed, hw.cancelled⟩
  | @finishes _ _ c w₁ _ hr =>
    have hw := Reading.beside_step hr
    rcases w₁.giveBack_eq s c with ⟨heq, -⟩ | ⟨heq, -⟩ <;> rw [heq] <;>
      exact ⟨hw.closed, hw.cancelled⟩

theorem Move.flags {s : Setting σ τ} {w w' : World σ} {o o' : Option (Fetch τ)}
    (h : Move s w o w' o') :
    w'.closed = w.closed ∧ w'.cancelled = w.cancelled ∧ w'.pool.closed = w.pool.closed := by
  have hpool := h.manages.closed
  cases h with
  | aside hw | begins _ hw => exact ⟨hw.closed, hw.cancelled, hpool⟩
  | goesOn h ht => exact ⟨(flags_step h).1, (flags_step h).2, hpool⟩
  | ends h hw =>
    obtain ⟨hclosed, hcancelled⟩ := flags_step h
    exact ⟨hw.closed.trans hclosed, hw.cancelled.trans hcancelled, hpool⟩
  | @dropped f w' hw =>
    have hsheds := sheds_drop s f w
    exact ⟨hw.closed.trans hsheds.closed, hw.cancelled.trans hsheds.cancelled, hpool⟩

end Fetch

namespace FileRead

variable {σ τ : Type} {s : Setting σ τ} {info : FileInfo} {shift : σ → σ → Prop}

theorem sheds_drop (s : Setting σ τ) (r : FileRead τ) (w : World σ) : w.Sheds (r.drop s w) := by
  obtain ⟨offset, len, phase⟩ := r
  cases phase with
  | starting => exact .refl w
  | filling pieces filled next =>
    obtain ⟨_, _, b, phase⟩ := next
    cases phase with
    | choosing | resting due => exact .refl w
    | refreshing r | renewing r => exact Renewal.sheds_drop r w
    | attempting used f => exact Fetch.sheds_drop s f w

/-! ### Once reads are called off -/

section

variable {w w' : World σ} {r : FileRead τ} {t : Turn (FileRead τ) (Except Failure (List UInt8))}
  {c₁ c c' : Crowd (World σ) Wanted (FileRead τ) (Except Failure (List UInt8))}

theorem step_of_starting {s : Setting σ τ} {r : FileRead τ} {w : World σ}
    (hr : r.phase = .starting) : (r.step s w).2 = w := by
  simp only [step, hr, begin]
  split
  · rfl
  · split
    · rfl
    · split <;> rfl

theorem step_of_starting_some (hr : r.phase = .starting) (hopen : w.closed = false)
    (hle : r.offset ≤ s.size) (hsome : available s.size r.offset r.len ≠ 0) :
    r.step s w = (.moved ⟨r.offset, available s.size r.offset r.len,
      .filling [] 0 (PoolRead.start r.offset (available s.size r.offset r.len))⟩, w) := by
  simp only [step, hr, begin, hopen, Bool.false_eq_true, if_false]
  rw [if_neg (Nat.not_lt_of_ge hle), if_neg hsome]

theorem step_of_starting_closed (hr : r.phase = .starting) (hclosed : w.closed = true) :
    r.step s w = (.done (.error .closed), w) := by
  simp only [step, hr, begin, hclosed, if_true]

theorem next?_of_closed (hclosed : w.closed = true) (hc : w.cancelled = true)
    (h : r.step s w = (t, w')) : t.next? = none := by
  cases hr : r.phase with
  | starting =>
    rw [step_of_starting_closed hr hclosed] at h
    cases h
    rfl
  | filling pieces filled next =>
    have hdone : t = .done (.error .cancelled) :=
      (congrArg Prod.fst h).symm.trans (step_of_cancelled s r hc (by rw [hr]; nofun))
    rw [hdone]
    rfl

theorem windsDown_step (hc : w.cancelled = true) (h : r.step s w = (t, w')) :
    w.WindsDown w' := by
  cases hr : r.phase with
  | starting =>
    have hsame : w' = w := (congrArg Prod.snd h).symm.trans (step_of_starting hr)
    rw [hsame]
    exact .refl hc
  | filling pieces filled next =>
    simp only [step, hr, hc, if_true] at h
    cases h
    exact ((sheds_drop s r w).windsDown hc).note _

theorem windsDown_close (s : Setting σ τ) (info : FileInfo)
    (h : w.closed = true → w.cancelled = true) :
    w.WindsDown (File.close s info w) := by
  cases hclosed : w.closed with
  | true =>
    rw [File.close_of_closed s info hclosed]
    exact .refl (h hclosed)
  | false =>
    obtain ⟨hnow, hcancelled, halike⟩ := File.close_of_not_closed s info hclosed
    refine ⟨hcancelled, fun _ => hnow, fun hopen => ?_, ?_⟩
    · rw [hnow] at hopen
      cases hopen
    · have htold : w.Tells Event.isNotice (w.closePool s) := by
        rw [World.closePool_eq]
        exact ⟨[_], rfl, by simp [Event.isNotice]⟩
      refine htold.trans (halike.tells.mono fun e he => ?_)
      unfold Event.ofStatistics at he
      split at he
      · rfl
      · cases he

theorem windsDown_outside (hc : w.cancelled = true) (h : Outside s info shift w w') :
    w.WindsDown w' := by
  cases h with
  | pass millis => exact ⟨hc, id, fun _ => rfl, .of_eq rfl⟩
  | cancel => exact ⟨rfl, id, fun _ => rfl, .of_eq rfl⟩
  | close => exact windsDown_close s info fun _ => hc
  | shift => exact ⟨hc, id, fun _ => rfl, .of_eq rfl⟩

theorem windsDown_of_step (hc : c.world.cancelled = true)
    (h : Crowd.Step (rules s info shift) c c') : c.world.WindsDown c'.world := by
  cases h with
  | join w ts rs k => exact .refl hc
  | turn l r rs k h ht | finish l r rs k h => exact windsDown_step hc h
  | drop w r l l' rs k => exact (sheds_drop s r w).windsDown hc
  | outside ts rs h => exact windsDown_outside hc h

/-- **Once reads are called off, nobody is asked for anything.** -/
theorem windsDown_of_reachable (hc : c₁.world.cancelled = true)
    (h : Crowd.Reachable (rules s info shift) c₁ c) : c₁.world.WindsDown c.world :=
  h.invariant (I := fun c => c₁.world.WindsDown c.world) (.refl hc) fun _ _ hw hs =>
    hw.trans (windsDown_of_step hw.cancelled hs)

theorem left_of_step (hclosed : c.world.closed = true) (hc : c.world.cancelled = true)
    (h : Crowd.Step (rules s info shift) c c') :
    ∀ x ∈ c'.tasks, x.2.phase ≠ .starting → x ∈ c.tasks := by
  intro x hx hphase
  cases h with
  | join w ts rs k =>
    rcases List.mem_append.1 hx with hx | hx
    · exact hx
    · rw [List.mem_singleton.1 hx] at hphase
      exact absurd rfl hphase
  | turn l r rs k h ht =>
    have hnone := next?_of_closed hclosed hc h
    rw [ht] at hnone
    cases hnone
  | finish l r rs k h | drop w a l r rs k =>
    simp only [List.mem_append, List.mem_cons] at hx ⊢
    exact hx.imp_right Or.inr
  | outside ts rs h => exact hx

/-! ### A closed file -/

/-- The reads of a closed file are called off, and its pool is closed. -/
def Sealed (w : World σ) : Prop := w.closed = true → w.cancelled = true ∧ w.pool.closed = true

theorem sealed_close (s : Setting σ τ) (info : FileInfo) (hw : Sealed w) :
    Sealed (File.close s info w) := by
  cases hclosed : w.closed with
  | true =>
    rw [File.close_of_closed s info hclosed]
    exact hw
  | false =>
    obtain ⟨-, hcancelled, halike⟩ := File.close_of_not_closed s info hclosed
    intro _
    refine ⟨hcancelled, ?_⟩
    rw [halike.pool, World.pool_closePool]
    rfl

/-- **The reads of a closed file are called off, and its pool is closed.** -/
theorem sealed (h : Crowd.Reachable (rules s info shift) (Crowd.empty w) c)
    (h₀ : w.closed = false) : Sealed c.world := by
  refine h.attempts (I := fun w _ => Sealed w) attempting ?_ ?_ ?_
  · intro hclosed
    rw [h₀] at hclosed
    cases hclosed
  · intro l r o o' w w' hw hmove hclosed
    obtain ⟨hsame, hcancelled, hpool⟩ := hmove.flags
    rw [hcancelled, hpool]
    exact hw (hsame ▸ hclosed)
  · intro fs w w' hw hout
    cases hout with
    | pass millis => exact hw
    | cancel => exact fun hclosed => ⟨rfl, (hw hclosed).2⟩
    | close => exact sealed_close s info hw
    | shift => exact hw

end

/-! ### From then on -/

section

variable {w₀ : World σ}
  {o : Crowd (World (Metered σ)) Url (Opening τ) (Except Failure FileInfo)}
  {c₁ c : Crowd (World (Metered σ)) Wanted (FileRead τ) (Except Failure (List UInt8))}

/-- What is true of a crowd `c` of reads which were called off when it was `c₁`. -/
structure CalledOff (s : Setting σ τ)
    (c₁ c : Crowd (World (Metered σ)) Wanted (FileRead τ) (Except Failure (List UInt8))) : Prop where
  /-- The next turn of a read that has begun is its last one, whatever has come of its data. -/
  pending : ∀ x ∈ c.tasks, x.2.phase ≠ .starting →
    (x.2.step s.metered c.world).1 = .done (.error .cancelled)
  /-- Nobody has been asked for anything: neither the transport nor the renewer nor the sleeper. -/
  silent : c₁.world.Tells Event.isNotice c.world
  /-- The connections are accounted for. -/
  held : Held s c
  /-- Once no read is pending, these are the idle ones. -/
  polled : (∀ x ∈ c.tasks, x.2.phase = .starting) →
    c.world.pool.live = c.world.pool.idle.length ∧ c.world.net.alive = c.world.pool.idle.length

/-- What is true of a crowd `c` of reads of a file that was closed when it was `c₁`. -/
structure Closed (s : Setting σ τ) (info : FileInfo)
    (c₁ c : Crowd (World (Metered σ)) Wanted (FileRead τ) (Except Failure (List UInt8))) : Prop
    extends CalledOff s c₁ c where
  /-- A read that begins is refused. -/
  refused : ∀ x ∈ c.tasks, x.2.phase = .starting →
    x.2.step s.metered c.world = (.done (.error .closed), c.world)
  /-- No other read is pending than were when the file was closed, and none of them has had a turn
  since. -/
  left : ∀ x ∈ c.tasks, x.2.phase ≠ .starting → x ∈ c₁.tasks
  /-- No connection is idle. -/
  idle : c.world.pool.idle = []
  /-- Once no read is pending, there are no connections, and no response is open. -/
  empty : (∀ x ∈ c.tasks, x.2.phase = .starting) →
    c.world.pool.live = 0 ∧ c.world.net.alive = 0
  /-- To close the file again changes nothing. -/
  again : File.close s.metered info c.world = c.world

/-- What is true of a crowd `c` of reads that were called off when it was `c₁`, as long as the file
is not closed. -/
structure Cancelled (s : Setting σ τ)
    (c₁ c : Crowd (World (Metered σ)) Wanted (FileRead τ) (Except Failure (List UInt8))) : Prop
    extends CalledOff s c₁ c where
  /-- A read that begins, and for which there are bytes in the file, changes nothing in its first
  turn, and is called off in its second one. -/
  begun : c.world.closed = false → ∀ x ∈ c.tasks, x.2.phase = .starting → x.2.offset ≤ s.size →
    available s.size x.2.offset x.2.len ≠ 0 →
    ∃ r, x.2.step s.metered c.world = (.moved r, c.world) ∧
      ∀ w, w.cancelled = true → (r.step s.metered w).1 = .done (.error .cancelled)
  /-- The idle connections are the same. -/
  idle : c.world.closed = false → c.world.pool.idle = c₁.world.pool.idle

theorem attempts_of_starting (h : ∀ x ∈ c.tasks, x.2.phase = .starting) :
    c.attempts attempt? = [] :=
  List.filterMap_eq_nil_iff.2 fun x hx => attempt?_of_starting (h x hx)

theorem calledOff_of_windsDown (hw : c₁.world.WindsDown c.world) (hheld : Held s c) :
    CalledOff s c₁ c := by
  refine ⟨fun x _ hphase => ?_, hw.tells, hheld, fun hall => ?_⟩
  · exact step_of_cancelled s.metered x.2 hw.cancelled hphase
  · have hnone := attempts_of_starting hall
    have hlive := hheld.live
    have halive := hheld.alive
    rw [checkouts, hnone] at hlive
    rw [bodies, hnone] at halive
    exact ⟨hlive, halive.trans (Int.add_zero _)⟩

theorem closed_of_windsDown (hw : c₁.world.WindsDown c.world) (hheld : Held s c)
    (hsealed : Sealed c.world) (hclosed : c.world.closed = true)
    (hleft : ∀ x ∈ c.tasks, x.2.phase ≠ .starting → x ∈ c₁.tasks) : Closed s info c₁ c := by
  have hidle := hheld.closed (hsealed hclosed).2
  have hcalled := calledOff_of_windsDown hw hheld
  refine ⟨hcalled, fun x _ hphase => ?_, hleft, hidle, fun hall => ?_, ?_⟩
  · exact step_of_starting_closed hphase hclosed
  · have hpolled := hcalled.polled hall
    rw [hidle] at hpolled
    exact hpolled
  · exact File.close_of_closed s.metered info hclosed

theorem cancelled_of_windsDown (hw : c₁.world.WindsDown c.world) (hheld : Held s c) :
    Cancelled s c₁ c := by
  refine ⟨calledOff_of_windsDown hw hheld, fun hopen x _ hphase hle hsome => ?_, hw.idle⟩
  have hbegin := step_of_starting_some (s := s.metered) hphase hopen hle hsome
  exact ⟨_, hbegin, fun w hc => step_of_cancelled s.metered _ hc nofun⟩

/-- **Closing a file, and calling off its reads.**  A file is opened, and reads of it join, take
turns and are dropped as they like, while anything happens besides. Whenever the file is closed,
and whenever its reads are called off, what is said above is true from then on. -/
theorem closing_calls_off (s : Setting σ τ) (info : FileInfo) (shift : σ → σ → Prop) (net : σ)
    (url : String) (expiresAt : Option Int)
    (ho : Crowd.Reachable (File.rules s.metered (Metered.Shift shift))
      (Crowd.empty (World.fresh net url expiresAt).metered) o)
    (h₁ : Crowd.Reachable (rules (s.ofSize info.size).metered info (Metered.Shift shift))
      (Crowd.empty o.world) c₁) :
    (∀ c, Crowd.Reachable (rules (s.ofSize info.size).metered info (Metered.Shift shift))
        { c₁ with world := File.close (s.ofSize info.size).metered info c₁.world } c →
      Closed (s.ofSize info.size) info c₁ c) ∧
      ∀ c, Crowd.Reachable (rules (s.ofSize info.size).metered info (Metered.Shift shift))
        { c₁ with world := File.cancel c₁.world } c → Cancelled (s.ofSize info.size) c₁ c := by
  have hnot : o.world.closed = false := (File.untouched_of_opening ho).closed
  generalize s.ofSize info.size = s at h₁ ⊢
  have hreach : ∀ {w c}, Outside s.metered info (Metered.Shift shift) c₁.world w →
      Crowd.Reachable (rules s.metered info (Metered.Shift shift)) { c₁ with world := w } c →
      Crowd.Reachable (rules s.metered info (Metered.Shift shift)) (Crowd.empty o.world) c :=
    fun hout h => Relation.ReflTransGen.trans (h₁.tail (.outside _ _ hout)) h
  refine ⟨fun c h => ?_, fun c h => ?_⟩
  · have hall := hreach (.close c₁.world) h
    have hclosed : (File.close s.metered info c₁.world).closed = true := by
      cases hc : c₁.world.closed with
      | true => rw [File.close_of_closed _ _ hc, hc]
      | false => exact (File.close_of_not_closed _ _ hc).1
    have hfirst := windsDown_close s.metered info fun hc => (sealed h₁ hnot hc).1
    -- nobody who had not begun before that ever does
    obtain ⟨hw, hleft⟩ := h.invariant (I := fun c => (File.close s.metered info c₁.world).WindsDown
        c.world ∧ ∀ x ∈ c.tasks, x.2.phase ≠ .starting → x ∈ c₁.tasks)
      ⟨.refl hfirst.cancelled, fun x hx _ => hx⟩ fun c c' hc hs => by
        refine ⟨hc.1.trans (windsDown_of_step hc.1.cancelled hs), fun x hx hphase => ?_⟩
        have hbefore := left_of_step (hc.1.closed hclosed) hc.1.cancelled hs x hx hphase
        exact hc.2 x hbefore hphase
    exact closed_of_windsDown (hfirst.trans hw) (held rfl ho hall) (sealed hall hnot)
      (hw.closed hclosed) hleft
  · have hfirst : c₁.world.WindsDown (File.cancel c₁.world) :=
      ⟨rfl, id, fun _ => rfl, .of_eq rfl⟩
    have hw := hfirst.trans (windsDown_of_reachable hfirst.cancelled h)
    exact cancelled_of_windsDown hw (held rfl ho (hreach (.cancel c₁.world) h))

/-- Four bytes. The first response has all of them, and the second one stops after a byte. -/
def stopsShort : World (Metered Script.State) :=
  (World.fresh ⟨[⟨some 0, .ok ⟨4, none, none⟩⟩],
    [⟨some 0, .ok [.chunk [50, 51], .chunk [52, 53]]⟩, ⟨some 0, .ok [.chunk [50], .silence]⟩]⟩
    "https://example.com/a.bin" none).metered

/-- Two connections, and no attempt is made again. -/
def twoConns : Setting Script.State Script.Ticket :=
  Script.setting 0 ⟨2, 0, .ofSeconds 10, none⟩ 1

/-- What is known of the four bytes. -/
def fourBytes : FileInfo := ⟨"a.bin", 4, none, none⟩

/-- The file of the four bytes is opened. -/
def openFourBytes : Option (Crowd (World (Metered Script.State)) Url (Opening Script.Ticket)
    (Except Failure FileInfo)) :=
  (Crowd.empty stopsShort).play (File.rules twoConns.metered (Metered.Shift fun _ _ => False))
    (.join ⟨"https", some "example.com", ["a.bin"]⟩ :: List.replicate 3 (.turn 0))

/-- Reads of the four bytes. -/
abbrev fourBytesRules : Crowd.Rules (World (Metered Script.State)) Wanted (FileRead Script.Ticket)
    (Except Failure (List UInt8)) :=
  rules (twoConns.ofSize 4).metered fourBytes (Metered.Shift fun _ _ => False)

/-- One read leaves its connection idle, and another one waits for the next chunk. -/
def waitForChunk : Option (Crowd (World (Metered Script.State)) Wanted (FileRead Script.Ticket)
    (Except Failure (List UInt8))) :=
  openFourBytes.bind fun o => (Crowd.empty o.world).play fourBytesRules
    (.join ⟨0, 1⟩ :: List.replicate 6 (.turn 0) ++ .join ⟨0, 2⟩ :: List.replicate 6 (.turn 0))

/-- The read that waits, and one that begins later, once the file is closed and once its reads are
called off. -/
theorem closing_calls_off_of_two :
    ∃ o c₁ c c',
      Crowd.Reachable (File.rules twoConns.metered (Metered.Shift fun _ _ => False))
        (Crowd.empty stopsShort) o ∧
      Crowd.Reachable fourBytesRules (Crowd.empty o.world) c₁ ∧
      c₁.world.pool.live = 2 ∧ c₁.world.net.alive = 2 ∧
      Crowd.Reachable fourBytesRules
        { c₁ with world := File.close (twoConns.ofSize 4).metered fourBytes c₁.world } c ∧
      c.results.map Prod.snd = [.error .closed, .error .cancelled, .ok [50]] ∧
      c.world.pool.live = 0 ∧ c.world.net.alive = 0 ∧
      Crowd.Reachable fourBytesRules { c₁ with world := File.cancel c₁.world } c' ∧
      c'.results.map Prod.snd = [.error .cancelled, .error .cancelled, .ok [50]] ∧
      c'.world.pool.live = 1 ∧ c'.world.pool.idle = c₁.world.pool.idle := by
  have hopening : openFourBytes = some (openFourBytes.get rfl) := rfl
  obtain ⟨opened, ho⟩ := Crowd.path_of_play .nil hopening
  have hreading : (Crowd.empty (openFourBytes.get rfl).world).play fourBytesRules
      (.join ⟨0, 1⟩ :: List.replicate 6 (.turn 0) ++ .join ⟨0, 2⟩ :: List.replicate 6 (.turn 0)) =
        some (waitForChunk.get rfl) := rfl
  obtain ⟨read, h₁⟩ := Crowd.path_of_play .nil hreading
  obtain ⟨hclosed, hcancelled⟩ := closing_calls_off twoConns fourBytes (fun _ _ => False)
    _ "https://example.com/a.bin" none ho.reachable h₁.reachable
  have hclosing : (Crowd.play fourBytesRules [.turn 0, .join ⟨1, 1⟩, .turn 0]
      { waitForChunk.get rfl with
        world := File.close (twoConns.ofSize 4).metered fourBytes (waitForChunk.get rfl).world }).map
        (fun c => (c.tasks.length, c.results.map Prod.snd)) =
          some (0, [.error .closed, .error .cancelled, .ok [50]]) := rfl
  have hcancelling : (Crowd.play fourBytesRules [.turn 0, .join ⟨1, 1⟩, .turn 0, .turn 0]
      { waitForChunk.get rfl with world := File.cancel (waitForChunk.get rfl).world }).map
        (fun c => (c.world.closed, c.world.pool.live, c.results.map Prod.snd)) =
        some (false, 1, [.error .cancelled, .error .cancelled, .ok [50]]) := rfl
  obtain ⟨c, hc, hseen⟩ := Crowd.reachable_of_play _ hclosing
  obtain ⟨c', hc', hseen'⟩ := Crowd.reachable_of_play _ hcancelling
  simp only [Prod.mk.injEq] at hseen hseen'
  obtain ⟨htasks, hresults⟩ := hseen
  obtain ⟨hopen, hlive, hresults'⟩ := hseen'
  have hnone : ∀ x ∈ c.tasks, x.2.phase = .starting := by
    rw [List.length_eq_zero_iff.1 htasks]
    exact fun _ hx => absurd hx List.not_mem_nil
  obtain ⟨hempty, hsilent⟩ := (hclosed c hc).empty hnone
  exact ⟨_, _, c, c', ho.reachable, h₁.reachable, rfl, rfl, hc, hresults, hempty, hsilent, hc',
    hresults', hlive, (hcancelled c' hc').idle hopen⟩

end

end FileRead

end RemoteFile
