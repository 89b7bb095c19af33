import RemoteFile.Proofs.Fetch.Spans

/-!
# The record of all connections

Connections are recorded as they are opened, and as they move on. The record of a world is right if
it has every connection that was counted, each once, and those that are idle or read on as far as
they have come. Then what all of them have yielded adds up to what was dropped and what was copied,
as no turn of an attempt moves more than one of them.

Main statements:

* `Fetch.Recorded.step` : the record is kept by a turn of an attempt.
* `Fetch.Recorded.keep` : it is kept by whatever leaves the connections as they are.
* `Fetch.Tracks.recorded` : so it is by whatever a task does that reads.
-/

namespace RemoteFile

namespace Fetch

variable {σ τ : Type} {s : Setting σ τ} {f g : Fetch τ} {w w' : World σ} {i : Nat}
  {t : Turn (Fetch τ) (Except Failure (List UInt8))}

/-- The record of the connections that were ever opened is right, given the turns that attempts have
taken: it has every connection that was counted, with the byte that it yields next as long as it is
idle or read on, and all that they have yielded was dropped or copied. -/
structure Recorded (s : Setting σ τ) (w : World σ) (fs : List (Fetch τ))
    (ms : List (World σ × Fetch τ)) : Prop where
  /-- Every connection that was counted is recorded. -/
  count : (spans s ms).length = w.counters.connsOpened
  /-- They are told apart by their numbers. -/
  nodup : ((spans s ms).map Span.id).Nodup
  /-- These were given before. -/
  given : ∀ x ∈ spans s ms, x.id < w.pool.nextId
  /-- A connection that is waited for is not recorded. -/
  unopened : ∀ f ∈ fs, ∀ i, f.awaited? = some i → i ∉ (spans s ms).map Span.id
  /-- Connections go forward. -/
  forward : ∀ x ∈ spans s ms, x.start ≤ x.cursor
  /-- Those that are idle or read on have come as far as is recorded. -/
  current : ∀ c ∈ openConns w.pool fs, ∃ x ∈ spans s ms, x.Of c
  /-- What they have yielded was dropped or copied. -/
  used : ((spans s ms).map Span.used).sum = skipped ms + copied ms
  /-- What was dropped is counted. -/
  dropped : w.counters.bytesDiscarded = skipped ms % counterLimit

variable {fs fs' l r : List (Fetch τ)} {ms : List (World σ × Fetch τ)}

theorem recorded_nil {w₀ : World σ} (h₀ : w₀.pool = Pool.fresh)
    (hopened : w₀.counters.connsOpened = 0) (hdropped : w₀.counters.bytesDiscarded = 0) :
    Recorded s w₀ ([] : List (Fetch τ)) [] := by
  refine ⟨hopened.symm, List.nodup_nil, nofun, nofun, nofun, fun c hc => ?_, rfl, hdropped⟩
  rw [openConns, h₀] at hc
  cases hc

/-- The record is kept by whatever leaves the connections as they are, or closes some. -/
theorem Recorded.keep (h : Recorded s w fs ms) (hfs : ∀ g ∈ fs', g ∈ fs ∨ g.phase = .looking)
    (hidle : ∀ e ∈ w'.pool.idle, e ∈ w.pool.idle) (hnext : w.pool.nextId ≤ w'.pool.nextId)
    (hopened : w'.counters.connsOpened = w.counters.connsOpened)
    (hdropped : w'.counters.bytesDiscarded = w.counters.bytesDiscarded) :
    Recorded s w' fs' ms := by
  refine ⟨h.count.trans hopened.symm, h.nodup, fun x hx => ?_, fun g hg i hi => ?_, h.forward,
    fun c hc => ?_, h.used, hdropped.trans h.dropped⟩
  · exact Nat.lt_of_lt_of_le (h.given x hx) hnext
  · rcases hfs g hg with hg | hphase
    · exact h.unopened g hg i hi
    · rw [awaited?, hphase] at hi
      cases hi
  · refine h.current c ?_
    rcases List.mem_append.1 hc with hc | hc
    · exact List.mem_append_left _ (hidle c hc)
    · obtain ⟨g, hg, hheld⟩ := List.mem_filterMap.1 hc
      rcases hfs g hg with hg | hphase
      · exact List.mem_append_right _ (List.mem_filterMap.2 ⟨g, hg, hheld⟩)
      · rw [held?, hphase] at hheld
        cases hheld

theorem Apart.conn?_ne {p : Pool} (h : Apart p (l ++ (some f).toList ++ r)) (hi : f.conn? = some i)
    (hg : g ∈ l ∨ g ∈ r) : g.conn? ≠ some i := by
  intro heq
  have honce := h.once i
  rw [count_split, conns_toList, Option.bind_some, hi, Option.toList_some, List.count_append,
    List.count_singleton_self] at honce
  rcases hg with hg | hg
  · have := List.count_pos_iff.2 (List.mem_filterMap.2 ⟨g, hg, heq⟩)
    omega
  · have := List.count_pos_iff.2 (List.mem_filterMap.2 ⟨g, hg, heq⟩)
    omega

theorem Apart.conn?_lt {p : Pool} (h : Apart p (l ++ (some f).toList ++ r))
    (hi : f.conn? = some i) : i < p.nextId := by
  refine h.known i (List.mem_append_right _ (List.mem_filterMap.2 ⟨f, ?_, hi⟩))
  simp

theorem mem_split (hg : g ∈ l ∨ g ∈ r) (o : Option (Fetch τ)) : g ∈ l ++ o.toList ++ r := by
  rcases hg with hg | hg <;> simp [hg]

theorem openConns_split {q : Pool} {o : Option (Fetch τ)} {P : Connection → Prop}
    (hidle : ∀ e ∈ q.idle, P e)
    (hothers : ∀ g, (g ∈ l ∨ g ∈ r) → ∀ e, g.held? = some e → P e)
    (hown : ∀ g, o = some g → ∀ e, g.held? = some e → P e) :
    ∀ e ∈ openConns q (l ++ o.toList ++ r), P e := by
  intro e he
  rcases List.mem_append.1 he with he | he
  · exact hidle e he
  · obtain ⟨g, hg, hheld⟩ := List.mem_filterMap.1 he
    simp only [List.mem_append, Option.mem_toList] at hg
    rcases hg with (hg | hg) | hg
    · exact hothers g (.inl hg) e hheld
    · exact hown g hg e hheld
    · exact hothers g (.inr hg) e hheld

theorem awaited?_split {o : Option (Fetch τ)} {P : Nat → Prop}
    (hothers : ∀ g, (g ∈ l ∨ g ∈ r) → ∀ i, g.awaited? = some i → P i)
    (hown : ∀ g, o = some g → ∀ i, g.awaited? = some i → P i) :
    ∀ g ∈ l ++ o.toList ++ r, ∀ i, g.awaited? = some i → P i := by
  intro g hg i hi
  simp only [List.mem_append, Option.mem_toList] at hg
  rcases hg with (hg | hg) | hg
  · exact hothers g (.inl hg) i hi
  · exact hown g hg i hi
  · exact hothers g (.inr hg) i hi

section

variable (hrec : Recorded s w (l ++ (some f).toList ++ r) ms)
  (hapart : Apart w.pool (l ++ (some f).toList ++ r)) (h : f.step s w = (t, w'))

include hrec

theorem Recorded.others : ∀ g, (g ∈ l ∨ g ∈ r) → ∀ e, g.held? = some e →
    ∃ x ∈ spans s ms, x.Of e := fun g hg e he =>
  hrec.current e (List.mem_append_right _ (List.mem_filterMap.2 ⟨g, mem_split hg _, he⟩))

theorem Recorded.others_unopened : ∀ g, (g ∈ l ∨ g ∈ r) → ∀ i, g.awaited? = some i →
    i ∉ (spans s ms).map Span.id := fun g hg => hrec.unopened g (mem_split hg _)

include h in
theorem Recorded.dropped_step :
    w'.counters.bytesDiscarded = skipped ((w, f) :: ms) % counterLimit := by
  have hfull : w.counters.bytesDiscarded < counterLimit := by
    rw [hrec.dropped]
    exact Nat.mod_lt _ (by decide)
  have hbytes : w'.counters.bytesDiscarded =
    (w.counters.bytesDiscarded + f.skipping) % counterLimit :=
      congrArg Prod.snd (bytes_step h hfull)
  rw [hbytes, hrec.dropped, Nat.mod_add_mod, Nat.add_comm]
  rfl

include hapart h

/-- **The record is kept when an attempt opens a connection**, which is recorded from then on. -/
theorem Recorded.step_opens {c : Connection} (hnew : f.opened? s w = some c)
    (hid : f.awaited? = some c.id) (hidle : w'.pool.idle = w.pool.idle)
    (hcount : w'.counters.connsOpened = w.counters.connsOpened + 1)
    (hnone : f.skipping = 0 ∧ f.copying = 0)
    (hnext : ∀ f', t.next? = some f' → f'.held? = some c) :
    Recorded s w' (l ++ t.next?.toList ++ r) ((w, f) :: ms) := by
  have hnextId := (manages_step h).nextId_le
  have hf : f ∈ l ++ (some f).toList ++ r := by simp
  have hconn := conn?_of_awaited? hid
  have hspans := spans_of_opened? ms hnew
  have hunused : (Span.opened c).used = 0 := Nat.sub_self c.cursor
  constructor
  case dropped => exact hrec.dropped_step h
  all_goals rw [hspans]
  case count => rw [List.length_cons, hrec.count, hcount]
  case nodup => exact List.nodup_cons.2 ⟨hrec.unopened f hf _ hid, hrec.nodup⟩
  case given =>
    intro x hx
    refine Nat.lt_of_lt_of_le ?_ hnextId
    rcases List.mem_cons.1 hx with rfl | hx
    · exact hapart.conn?_lt hconn
    · exact hrec.given x hx
  case unopened =>
    refine awaited?_split (fun g hg i hi hmem => ?_) (fun g hg i hi => ?_)
    · rcases List.mem_cons.1 hmem with rfl | hmem
      · exact hapart.conn?_ne hconn hg (conn?_of_awaited? hi)
      · exact hrec.others_unopened g hg i hi hmem
    · rw [awaited?_of_held? (hnext g hg)] at hi
      cases hi
  case forward =>
    intro x hx
    rcases List.mem_cons.1 hx with rfl | hx
    · exact Nat.le_refl _
    · exact hrec.forward x hx
  case current =>
    have hold : ∀ {e}, (∃ x ∈ spans s ms, x.Of e) → ∃ x ∈ .opened c :: spans s ms, x.Of e :=
      fun ⟨x, hx, he⟩ => ⟨x, List.mem_cons_of_mem _ hx, he⟩
    refine openConns_split (fun e he => ?_) (fun g hg e he => ?_) (fun g hg e he => ?_)
    · exact hold (hrec.current e (List.mem_append_left _ (hidle ▸ he)))
    · exact hold (hrec.others g hg e he)
    · cases (hnext g hg).symm.trans he
      exact ⟨_, List.mem_cons_self, rfl, rfl⟩
  case used =>
    rw [List.map_cons, List.sum_cons, hunused, hrec.used, skipped_cons, copied_cons, hnone.1,
      hnone.2]
    omega

/-- **The record is kept when an attempt reads on a connection**, which nobody else has. -/
theorem Recorded.step_moves {d c : Connection} (hnew : f.opened? s w = none)
    (hmoved : f.moved? s w = some c) (hheld : f.held? = some d) (hid : c.id = d.id)
    (hcursor : c.cursor = d.cursor + (f.skipping + f.copying))
    (hidle : ∀ e ∈ w'.pool.idle, e ∈ w.pool.idle ∨ e.id = c.id ∧ e.cursor = c.cursor)
    (hcount : w'.counters.connsOpened = w.counters.connsOpened)
    (hnext : ∀ f', t.next? = some f' → f'.held? = some c) :
    Recorded s w' (l ++ t.next?.toList ++ r) ((w, f) :: ms) := by
  have hnextId := (manages_step h).nextId_le
  have hf : f ∈ l ++ (some f).toList ++ r := by simp
  have hconn : f.conn? = some d.id := conn?_of_held? hheld
  have hspans := spans_of_moved? ms hnew hmoved
  have hspan : ∃ x ∈ spans s ms, x.Of d :=
    hrec.current d (List.mem_append_right _ (List.mem_filterMap.2 ⟨f, hf, hheld⟩))
  constructor
  case dropped => exact hrec.dropped_step h
  all_goals rw [hspans]
  case count => rw [Span.length_advance, hrec.count, hcount]
  case nodup =>
    rw [Span.map_id_advance]
    exact hrec.nodup
  case given =>
    intro x hx
    refine Nat.lt_of_lt_of_le ?_ hnextId
    rcases Span.mem_advance hx with hx | ⟨y, hy, -, rfl⟩
    · exact hrec.given x hx
    · exact hrec.given y hy
  case unopened =>
    rw [Span.map_id_advance]
    refine awaited?_split hrec.others_unopened (fun g hg i hi => ?_)
    rw [awaited?_of_held? (hnext g hg)] at hi
    cases hi
  case forward => exact Span.forward_advance hrec.nodup hid.symm (by omega) hrec.forward hspan
  case current =>
    -- nobody else has the connection that moves on
    refine openConns_split (fun e he => ?_) (fun g hg e he => ?_) (fun g hg e he => ?_)
    · rcases hidle e he with he | ⟨heid, hecursor⟩
      · refine Span.exists_of_advance_of_ne (fun heq => ?_)
          (hrec.current e (List.mem_append_left _ he))
        exact hapart.not_held he hf (by rw [hconn, heq, hid])
      · obtain ⟨x, hx, hxid, hxcursor⟩ := Span.exists_of_advance hid.symm hspan
        exact ⟨x, hx, hxid.trans heid.symm, hxcursor.trans hecursor.symm⟩
    · refine Span.exists_of_advance_of_ne (fun heq => ?_) (hrec.others g hg e he)
      exact hapart.conn?_ne hconn hg (by rw [conn?_of_held? he, heq, hid])
    · cases (hnext g hg).symm.trans he
      exact Span.exists_of_advance hid.symm hspan
  case used =>
    rw [Span.sum_advance hrec.nodup hid.symm hcursor hrec.forward hspan, hrec.used, skipped_cons,
      copied_cons]
    omega

omit hapart in
/-- **The record is kept by every other turn of an attempt.** -/
theorem Recorded.step_stays (hnew : f.opened? s w = none) (hmoved : f.moved? s w = none)
    (hidle : ∀ e ∈ w'.pool.idle, e ∈ w.pool.idle)
    (hcount : w'.counters.connsOpened = w.counters.connsOpened)
    (hnone : f.skipping = 0 ∧ f.copying = 0)
    (hheld : ∀ f', t.next? = some f' → ∀ c, f'.held? = some c → c ∈ w.pool.idle)
    (hawaited : ∀ f', t.next? = some f' → ∀ i, f'.awaited? = some i →
      f.awaited? = some i ∨ i = w.pool.nextId) :
    Recorded s w' (l ++ t.next?.toList ++ r) ((w, f) :: ms) := by
  have hnextId := (manages_step h).nextId_le
  have hf : f ∈ l ++ (some f).toList ++ r := by simp
  have hspans := spans_of_none ms hnew hmoved
  constructor
  case dropped => exact hrec.dropped_step h
  all_goals rw [hspans]
  case count => rw [hrec.count, hcount]
  case nodup => exact hrec.nodup
  case given => exact fun x hx => Nat.lt_of_lt_of_le (hrec.given x hx) hnextId
  case unopened =>
    refine awaited?_split hrec.others_unopened (fun g hg i hi hmem => ?_)
    rcases hawaited g hg i hi with hi | rfl
    · exact hrec.unopened f hf i hi hmem
    · obtain ⟨x, hx, hxid⟩ := List.mem_map.1 hmem
      exact Nat.lt_irrefl _ (hxid ▸ hrec.given x hx)
  case forward => exact hrec.forward
  case current =>
    refine openConns_split (fun e he => ?_) hrec.others (fun g hg e he => ?_)
    · exact hrec.current e (List.mem_append_left _ (hidle e he))
    · exact hrec.current e (List.mem_append_left _ (hheld g hg e he))
  case used =>
    rw [hrec.used, skipped_cons, copied_cons, hnone.1, hnone.2]
    omega

/-- **The record is kept by a turn of an attempt.** -/
theorem Recorded.step : Recorded s w' (l ++ t.next?.toList ++ r) ((w, f) :: ms) := by
  cases follows h with
  | opens hnew hid hidle hcount hnone hnext =>
    exact hrec.step_opens hapart h hnew hid hidle hcount hnone hnext
  | moves hnew hmoved hheld hid hcursor hidle hcount hnext =>
    exact hrec.step_moves hapart h hnew hmoved hheld hid hcursor hidle hcount hnext
  | stays hnew hmoved hidle hcount hnone hheld hawaited =>
    exact hrec.step_stays h hnew hmoved hidle hcount hnone hheld hawaited

end

/-- What one step of a task does to the connections, and which attempt takes a turn in it. -/
inductive Tracks (s : Setting σ τ) (w : World σ) :
    Option (Fetch τ) → Option (Fetch τ) → World σ → Option (Fetch τ) → Prop
  /-- The attempt takes a turn, after which something is arranged. -/
  | moves {f : Fetch τ} {t : Turn (Fetch τ) (Except Failure (List UInt8))} {w₁ w' : World σ}
      (h : f.step s w = (t, w₁)) (hw : w₁.Beside w')
      (hdropped : w'.counters.bytesDiscarded = w₁.counters.bytesDiscarded) :
      Tracks s w (some f) (some f) w' t.next?
  /-- No attempt takes a turn; one may begin, or be dropped. -/
  | rests {o o' : Option (Fetch τ)} {w' : World σ} (ho : ∀ g, o' = some g → g.phase = .looking)
      (hidle : ∀ e ∈ w'.pool.idle, e ∈ w.pool.idle) (hnext : w.pool.nextId ≤ w'.pool.nextId)
      (hopened : w'.counters.connsOpened = w.counters.connsOpened)
      (hdropped : w'.counters.bytesDiscarded = w.counters.bytesDiscarded) :
      Tracks s w o none w' o'

namespace Tracks

variable {o o' mover : Option (Fetch τ)} {w₁ : World σ}

theorem aside (o : Option (Fetch τ)) (hw : w.Beside w')
    (hdropped : w'.counters.bytesDiscarded = w.counters.bytesDiscarded)
    (ho : ∀ g, o' = some g → g.phase = .looking) : Tracks s w o none w' o' := by
  have hpool := hw.pool
  refine .rests ho (fun e he => ?_) ?_ hw.unread.opened hdropped
  · rw [← hpool]
    exact he
  · rw [hpool]

theorem beside (h : Tracks s w o mover w₁ o') (hw : w₁.Beside w')
    (hdropped : w'.counters.bytesDiscarded = w₁.counters.bytesDiscarded) :
    Tracks s w o mover w' o' := by
  have hpool := hw.pool
  cases h with
  | moves h hw₁ hdropped₁ => exact .moves h (hw₁.trans hw) (hdropped.trans hdropped₁)
  | rests ho hidle hnext hopened hdropped₁ =>
    refine .rests ho (fun e he => ?_) ?_ (hw.unread.opened.trans hopened) (hdropped.trans hdropped₁)
    · rw [hpool] at he
      exact hidle e he
    · rw [hpool]
      exact hnext

/-- **What a task does keeps the record.** -/
theorem recorded (h : Tracks s w o mover w' o') (hrec : Recorded s w (l ++ o.toList ++ r) ms)
    (hapart : Apart w.pool (l ++ o.toList ++ r)) :
    Recorded s w' (l ++ o'.toList ++ r) (mover.toList.map (w, ·) ++ ms) := by
  cases h with
  | moves h hw hdropped =>
    have hpool := hw.pool
    refine (hrec.step hapart h).keep (fun g hg => .inl hg) (fun e he => ?_) ?_ hw.unread.opened
      hdropped
    · rw [← hpool]
      exact he
    · rw [hpool]
  | rests ho hidle hnext hopened hdropped =>
    refine hrec.keep (fun g hg => ?_) hidle hnext hopened hdropped
    simp only [List.mem_append, Option.mem_toList] at hg
    rcases hg with (hg | hg) | hg
    · exact .inl (mem_split (.inl hg) o)
    · exact .inr (ho g hg)
    · exact .inl (mem_split (.inr hg) o)

end Tracks

end Fetch

end RemoteFile
