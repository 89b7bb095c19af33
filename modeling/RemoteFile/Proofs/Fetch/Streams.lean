import RemoteFile.Proofs.Fetch.Sound
import RemoteFile.Proofs.Pool.Streams
import RemoteFile.Proofs.Pool.Tally

/-!
# An attempt within a stream

Over a transport that serves every range in full, the attempt of a read that its stream may make
next finds the connection of the stream, or opens one if the read is the first of its stream. It
drops the bytes of the gap, and gives the connection back at the end of the read. It never waits for
a slot and never fails.

Main statements:

* `ReadStream.Due.own?_eq_none` : if no connection can serve a read, it is the first of its stream.
* `Fetch.Stands.step` : an attempt goes on as it should, or succeeds.
-/

namespace RemoteFile

open ReadStream

variable {σ τ : Type} {s : Setting σ τ} {shift : σ → σ → Prop} {data : List UInt8}
  {v : Service s.net shift data} {reads : List (Nat × Wanted)} {i : Nat} {k : Wanted}
  {w w' : World σ} {f : Fetch τ} {t : Turn (Fetch τ) (Except Failure (List UInt8))}

/-! ### Tallies of streams -/

namespace Tally

/-- No read is under way: each stream below the end of the object has its connection. -/
def resting (size : Nat) (reads : List (Nat × Wanted)) : Tally where
  berths := ReadStream.berths size (after size reads)
  held := 0
  nextId := (after size reads).length + 1
  opened := (after size reads).length
  reused := reads.length - (after size reads).length
  dropped := gaps size reads

/-- The first read of a stream waits for its connection. -/
def asking (size : Nat) (reads : List (Nat × Wanted)) : Tally :=
  { resting size reads with held := 1, nextId := (after size reads).length + 2 }

/-- A read has got the connection of its stream, and so many bytes were dropped. -/
def reading (size : Nat) (reads : List (Nat × Wanted)) (i : Nat) (k : Wanted) (dropped : Nat) :
    Tally :=
  { resting size ((i, k) :: reads) with
    berths := ReadStream.berths size (others i (after size reads)), held := 1, dropped := dropped }

theorem returned_reading (size : Nat) (reads : List (Nat × Wanted)) (i : Nat) (k : Wanted) :
    (reading size reads i k (gaps size ((i, k) :: reads))).returned size
      (next size (after size reads) i k).conn (next size (after size reads) i k).stop =
      resting size ((i, k) :: reads) := by
  have hberths : ReadStream.berths size (after size ((i, k) :: reads)) =
      if (next size (after size reads) i k).stop < size then
        ((next size (after size reads) i k).conn, (next size (after size reads) i k).stop) ::
          ReadStream.berths size (others i (after size reads))
      else ReadStream.berths size (others i (after size reads)) := by
    rw [after, ReadStream.berths, List.filter_cons, ReadStream.berths]
    simp only [decide_eq_true_eq]
    split <;> rfl
  rw [returned, reading, ← hberths]
  rfl

theorem reading_of_own {size : Nat} {x : ReadStream} (h : own? i (after size reads) = some x) :
    { resting size reads with
      berths := ReadStream.berths size (others i (after size reads)), held := 1
      reused := (resting size reads).reused + 1 } = reading size reads i k (gaps size reads) := by
  have hlength := length_after_cons size reads i k
  have hle := length_after_le_length size reads
  rw [h, if_neg (Option.some_ne_none x), Nat.add_zero] at hlength
  rw [reading, resting, resting, hlength, List.length_cons, Nat.succ_sub hle]

theorem reading_of_first {size : Nat} (h : own? i (after size reads) = none) :
    { asking size reads with opened := (asking size reads).opened + 1 } =
      reading size reads i k (gaps size reads) := by
  have hlength := length_after_cons size reads i k
  rw [h, if_pos rfl] at hlength
  rw [reading, asking, resting, resting, hlength, others_of_own?_eq_none h, List.length_cons,
    Nat.add_sub_add_right]

end Tally

/-! ### Which connection there is -/

/-- A read may be made next, over a transport that serves every range in full, if there are to be no
more streams than connections. -/
structure ReadStream.Due (v : Service s.net shift data) (reads : List (Nat × Wanted)) (i : Nat)
    (k : Wanted) : Prop where
  /-- The size is known. -/
  size_eq : s.size = data.length
  /-- Connections reach to the end of the object. -/
  unlimited : s.options.pool.maxRangeLen = none
  /-- Every range is served in full. -/
  full : v.Full s.options.timeouts
  /-- The read is one that its stream may make. -/
  allows : Allows s.size s.options.pool.maxSkip (after s.size reads) i k
  /-- There are no more streams than connections. -/
  room : (after s.size ((i, k) :: reads)).length ≤ s.options.pool.maxConns

namespace ReadStream.Due

/-- If no connection can serve the read, it is the first of its stream, and a slot is free. -/
theorem own?_eq_none (h : Due v reads i k) (hw : w.Holds s (.resting s.size reads))
    (hnone : ∀ c ∈ w.pool.idle, c.skipFor k.offset s.options.pool.maxSkip = none) :
    own? i (after s.size reads) = none ∧ w.pool.live < s.options.pool.maxConns := by
  have hfirst : own? i (after s.size reads) = none := by
    refine Option.eq_none_iff_forall_ne_some.2 fun x hx => ?_
    -- the connection of the stream would be idle, and could serve the read
    obtain ⟨hmem, hname⟩ := mem_of_own? hx
    have hreaches := h.allows.own x hmem hname
    have hberth : (x.conn, x.stop) ∈ w.pool.idle.map fun c => (c.id, c.cursor) :=
      hw.idle.mem_iff.2
        (mem_berths.2 ⟨x, hmem, Nat.lt_of_le_of_lt hreaches.1 h.allows.inside, rfl, rfl⟩)
    obtain ⟨c, hc, heq⟩ := List.mem_map.1 hberth
    have hcursor : c.cursor = x.stop := congrArg Prod.snd heq
    have hserves : c.skipFor k.offset s.options.pool.maxSkip = some (k.offset - c.cursor) := by
      rw [Pool.skipFor_eq_some_iff, hcursor, hw.stop c hc]
      exact ⟨hreaches.1, h.allows.inside, hreaches.2, rfl⟩
    cases (hnone c hc).symm.trans hserves
  have hlive : w.pool.live = (berths s.size (after s.size reads)).length := hw.live
  have hberths : (berths s.size (after s.size reads)).length ≤ _ := length_berths_le
  have hroom := h.room
  rw [length_after_cons, hfirst, if_pos rfl] at hroom
  exact ⟨hfirst, by omega⟩

theorem own?_of_serves {c : Connection} {n : Nat} (h : Due v reads i k)
    (hw : w.Holds s (.resting s.size reads)) (hc : c ∈ w.pool.idle)
    (hskip : c.skipFor k.offset s.options.pool.maxSkip = some n) :
    ∃ x, own? i (after s.size reads) = some x ∧ x.conn = c.id ∧ x.stop = c.cursor ∧
      x.stop < s.size := by
  have hberth : (c.id, c.cursor) ∈ berths s.size (after s.size reads) :=
    hw.idle.mem_iff.1 (List.mem_map_of_mem hc)
  obtain ⟨x, hx, hlt, hconn, hcursor⟩ := mem_berths.1 hberth
  obtain ⟨hle, -, hgap, -⟩ := Pool.skipFor_eq_some_iff.1 hskip
  rw [← hcursor] at hle hgap
  have hname := h.allows.eq_own hx ⟨hle, hgap⟩
  exact ⟨x, own?_of_mem (nodup_after _ _) hx hname, hconn, hcursor, hlt⟩

end ReadStream.Due

/-! ### Where the attempt stands -/

namespace Fetch

/-- Where the attempt of a read stands. -/
inductive Stands (s : Setting σ τ) (reads : List (Nat × Wanted)) (i : Nat) (k : Wanted)
    (w : World σ) (f : Fetch τ) : Prop
  /-- It looks for a connection. -/
  | looking (hf : f.phase = .looking) (hw : w.Holds s (.resting s.size reads))
  /-- It is the first read of its stream, and waits for a connection, which comes in time. -/
  | opening {ticket : τ} {deadline due : Nat}
      (hf : f.phase = .opening ((after s.size reads).length + 1) s.size ticket deadline)
      (hfirst : own? i (after s.size reads) = none) (hdue : s.net.due ticket = some due)
      (hle : due ≤ deadline) (hw : w.Holds s (.asking s.size reads))
  /-- It reads on the connection of its stream, and the gap is what was dropped and what is still to
  be dropped. -/
  | reading {r : Reading} {dropped : Nat} (hf : f.phase = .reading r)
      (hid : r.conn.id = (next s.size (after s.size reads) i k).conn) (hstop : r.conn.stop = s.size)
      (hr : r.Supplied s.options.timeouts.idle w.now)
      (hgap : dropped + r.ahead = gaps s.size ((i, k) :: reads))
      (hw : w.Holds s (.reading s.size reads i k dropped))

/-- An attempt goes on as it should, or succeeds with all that was wanted. -/
def GoesOn (s : Setting σ τ) (reads : List (Nat × Wanted)) (i : Nat) (k : Wanted)
    (t : Turn (Fetch τ) (Except Failure (List UInt8))) (w' : World σ) : Prop :=
  (∃ f', t.next? = some f' ∧ f'.Stands s reads i k w') ∨
    ∃ bytes, t = .done (.ok bytes) ∧
      bytes.length = FileRead.available s.size k.offset k.len ∧
      w'.Holds s (.resting s.size ((i, k) :: reads))

theorem GoesOn.stands {f' : Fetch τ} (h : GoesOn s reads i k t w') (ht : t.next? = some f') :
    f'.Stands s reads i k w' := by
  rcases h with ⟨f₁, hf₁, hstands⟩ | ⟨bytes, rfl, -⟩
  · cases hf₁.symm.trans ht
    exact hstands
  · cases ht

theorem GoesOn.rests {bytes : List UInt8} (h : GoesOn s reads i k (.done (.ok bytes)) w') :
    bytes.length = FileRead.available s.size k.offset k.len ∧
      w'.Holds s (.resting s.size ((i, k) :: reads)) := by
  rcases h with ⟨f₁, hf₁, -⟩ | ⟨_, heq, hrests⟩
  · cases hf₁
  · cases heq
    exact hrests

theorem not_goesOn_error {e : Failure} : ¬ GoesOn s reads i k (.done (.error e)) w' := by
  rintro (⟨f₁, hf₁, -⟩ | ⟨_, heq, -⟩)
  · cases hf₁
  · cases heq

theorem goesOn_request (hdue : Due v reads i k) (hsound : w.Sound v) (hoffset : f.offset = k.offset)
    (hfirst : own? i (after s.size reads) = none) (hw : w.Holds s (.resting s.size reads))
    (h : f.request s ((w.manage fun _ => w.pool.reserve).count (·.lived w.pool.reserve.live)) =
      (t, w')) : GoesOn s reads i k t w' := by
  have hw' := hw.request h
  have hstop : rangeStop f.offset s.size s.options.pool.maxRangeLen = s.size := by
    rw [hdue.unlimited]
    rfl
  have hinside : f.offset < s.size := by
    rw [hoffset]
    exact hdue.allows.inside
  have hid : w.pool.nextId = (after s.size reads).length + 1 := hw.nextId
  simp only [request, World.issue_eq, hstop] at h
  cases h
  obtain ⟨due, hticket, hle⟩ := hdue.full.due hsound.net hinside (Nat.le_of_eq hdue.size_eq) rfl
  refine .inl ⟨_, rfl, .opening ?_ hfirst hticket hle hw'⟩
  rw [← hid]
  rfl

theorem goesOn_looking (hdue : Due v reads i k) (hsound : w.Sound v) (hoffset : f.offset = k.offset)
    (hf : f.phase = .looking) (hw : w.Holds s (.resting s.size reads))
    (hfresh : w.pool.stale s.options.pool w.now = []) (h : f.step s w = (t, w')) :
    GoesOn s reads i k t w' := by
  have hpool : w.pool.sweep s.options.pool w.now = w.pool := Pool.sweep_of_stale_eq_nil hfresh
  have hworld : w.sweep s = w := World.sweep_of_stale_eq_nil hfresh
  cases turned h with
  | refused _ hc => cases hc.symm.trans hw.served
  | @reuses c skip q _ _ hq =>
    rw [hpool, hoffset] at hq
    rw [hworld]
    cases hq with
    | reuse hskip hidle hleast =>
      obtain ⟨x, hown, hconn, hcursor, hlt⟩ :=
        hdue.own?_of_serves hw (hidle.mem_iff.2 List.mem_cons_self) hskip
      have hperm := perm_berths (nodup_after s.size reads) hown hlt
      rw [hconn, hcursor] at hperm
      have hw' := hw.take hidle hperm (.reusing c.id f.offset skip)
      have htally : (_ : Tally) = _ := Tally.reading_of_own (k := k) hown
      refine .inl ⟨_, rfl, .reading rfl ?_ ?_ (.begun ?_) ?_ (htally ▸ hw')⟩
      · rw [conn_next_of_own hown]
        exact hconn.symm
      · exact hw.stop _ (hidle.mem_iff.2 List.mem_cons_self)
      · exact hw.supplied _ (hidle.mem_iff.2 List.mem_cons_self)
      · rw [gaps_cons_of_own hown, hcursor, ← hoffset]
        rfl
  | reserves _ _ hq hr =>
    rw [hpool, hoffset] at hq
    rw [hworld] at hr
    cases hq with
    | reserve hnone hroom =>
      exact goesOn_request hdue hsound hoffset (hdue.own?_eq_none hw hnone).1 hw hr
  | replaces _ _ hq =>
    rw [hpool, hoffset] at hq
    cases hq with
    | replace hnone hfull => exact absurd (hdue.own?_eq_none hw hnone).2 (Nat.not_lt_of_le hfull)
  | parks _ _ hq =>
    rw [hpool] at hq
    cases hq with
    | wait hidle hfull =>
      refine absurd (hdue.own?_eq_none hw ?_).2 (Nat.not_lt_of_le hfull)
      rw [hidle]
      exact nofun
  -- in every other case the attempt does not look for a connection
  | rouses hf' | dozes hf' | expects hf' | expires hf' | denied hf' | opens hf' | wastes hf'
  | reads hf' | finishes hf' | breaks hf' => cases hf.symm.trans hf'

theorem arrival_ne_late {ticket : τ} {deadline due now : Nat} (hdue : s.net.due ticket = some due)
    (hle : due ≤ deadline) : s.net.arrival ticket (some deadline) now ≠ .late := by
  intro harr
  simp only [Transport.arrival, hasCome, hdue, decide_eq_true_eq] at harr
  split at harr
  · cases harr
  · split at harr
    · omega
    · cases harr

theorem goesOn_opening {ticket : τ} {deadline due : Nat} (hd : Due v reads i k) (hsound : w.Sound v)
    (hfetch : f.Sound v k.offset (FileRead.available s.size k.offset k.len) w)
    (hf : f.phase = .opening ((after s.size reads).length + 1) s.size ticket deadline)
    (hfirst : own? i (after s.size reads) = none) (hdue : s.net.due ticket = some due)
    (hle : due ≤ deadline) (hw : w.Holds s (.asking s.size reads)) (h : f.step s w = (t, w')) :
    GoesOn s reads i k t w' := by
  have hinside : k.offset < s.size := hd.allows.inside
  simp only [step, hf, await] at h
  cases harr : s.net.arrival ticket (some deadline) w.now with
  | late => exact absurd harr (arrival_ne_late hdue hle)
  | pending wake =>
    rw [harr] at h
    cases h
    exact .inl ⟨_, rfl, .opening hf hfirst hdue hle hw⟩
  | here =>
    have hnow : due ≤ w.now := by
      have hcome := (Transport.arrival_here_iff _ _ _ _).1 harr
      rw [hdue] at hcome
      exact of_decide_eq_true hcome
    rcases hcol : w.collect s ticket with ⟨answer, w₁⟩
    obtain ⟨notices, hopened⟩ := World.net_of_collect hcol
    obtain ⟨hstop, hawaits⟩ := hfetch.opening hf
    obtain ⟨body, rfl, htime⟩ := hd.full.opened hsound.net hinside hstop hawaits hdue hopened
    have hw' := hw.collect hcol (.opened ((after s.size reads).length + 1) f.offset s.size
      f.source.generation)
    rw [Tally.reading_of_first (k := k) hfirst] at hw'
    have hstart : Reading.start (.opened ((after s.size reads).length + 1) f.offset s.size body
        w₁.now) f.offset f.len = .ok _ :=
      Reading.start_eq_ok_iff.2 ⟨Nat.le_refl _, hfetch.offset_eq ▸ hinside, rfl⟩
    simp only [harr, hcol, use, hstart] at h
    cases h
    refine .inl ⟨_, rfl, .reading rfl ?_ rfl (.begun (.opened w₁.now ?_)) ?_ hw'⟩
    · rw [conn_next_of_first hfirst]
      rfl
    · rw [hfetch.offset_eq]
      exact htime.later (hnow.trans (Nat.le_of_eq (World.now_of_collect hcol).symm))
    · rw [gaps_cons_of_first hfirst]
      change gaps s.size reads + (f.offset - f.offset) = _
      rw [Nat.sub_self, Nat.add_zero]

theorem goesOn_reading {r : Reading} {dropped : Nat} (hd : Due v reads i k)
    (hfetch : f.Sound v k.offset (FileRead.available s.size k.offset k.len) w)
    (hf : f.phase = .reading r)
    (hid : r.conn.id = (next s.size (after s.size reads) i k).conn) (hstop : r.conn.stop = s.size)
    (hr : r.Supplied s.options.timeouts.idle w.now)
    (hgap : dropped + r.ahead = gaps s.size ((i, k) :: reads))
    (hw : w.Holds s (.reading s.size reads i k dropped)) (h : f.step s w = (t, w')) :
    GoesOn s reads i k t w' := by
  have hplaced := (hfetch.reading hf).placed
  have hinside : k.offset < r.conn.stop := hstop ▸ hd.allows.inside
  cases turned h with
  | reads hf' hstep hnext ht =>
    cases hf.symm.trans hf'
    have hnow := (Reading.beside_step hstep).now
    have hsame := Reading.sameConn_step hstep hnext
    have hahead := Reading.ahead_step hstep hnext
    have hsupplied := (hr.step hplaced hinside hstep).next hnext
    refine .inl ⟨_, ht, .reading rfl (hsame.id.trans hid) (hsame.stop.trans hstop)
      (hnow ▸ hsupplied) ?_ (hw.read hstep)⟩
    change dropped + r.dropped + _ = _
    omega
  | @finishes r' bytes c w₁ hf' hstep =>
    cases hf.symm.trans hf'
    have hnow := (Reading.beside_step hstep).now
    have hsame := Reading.sameConn_done hstep
    have hahead := Reading.ahead_done hstep
    obtain ⟨hlength, hcursor⟩ := hplaced.done hstep
    have hbytes : bytes.length = FileRead.available s.size k.offset k.len := by
      rw [hlength, hstop]
      exact Nat.min_eq_left (Nat.min_le_right _ _)
    cases hr.step hplaced hinside hstep with
    | ends _ hsupplied =>
      have hback := (hw.read hstep).giveBack Nat.one_pos (hsame.stop.trans hstop)
        (hnow ▸ hsupplied)
      have hall : dropped + r.dropped = gaps s.size ((i, k) :: reads) := by
        rw [hahead, hgap]
      have hend : c.cursor = (next s.size (after s.size reads) i k).stop := by
        rw [hcursor, hbytes]
        rfl
      refine .inr ⟨bytes, rfl, hbytes, ?_⟩
      rw [hsame.id, hid, hend] at hback
      have htally := Tally.returned_reading s.size reads i k
      rw [← hall] at htally
      rw [← htally]
      exact hback
  | breaks hf' hstep =>
    cases hf.symm.trans hf'
    cases hr.step hplaced hinside hstep
  -- in every other case the attempt does not read
  | refused hf' | reuses hf' | reserves hf' | replaces hf' | parks hf' | rouses hf' | dozes hf'
  | expects hf' | expires hf' | denied hf' | opens hf' | wastes hf' => cases hf.symm.trans hf'

/-- **An attempt goes on as it should, or succeeds**, if no connection is stale when it looks for
one. -/
theorem Stands.step (hstands : f.Stands s reads i k w) (hd : Due v reads i k) (hsound : w.Sound v)
    (hfetch : f.Sound v k.offset (FileRead.available s.size k.offset k.len) w)
    (hfresh : f.phase = .looking → w.pool.stale s.options.pool w.now = [])
    (h : f.step s w = (t, w')) : GoesOn s reads i k t w' := by
  cases hstands with
  | looking hf hw => exact goesOn_looking hd hsound hfetch.offset_eq hf hw (hfresh hf) h
  | opening hf hfirst hdue hle hw => exact goesOn_opening hd hsound hfetch hf hfirst hdue hle hw h
  | reading hf hid hstop hr hgap hw => exact goesOn_reading hd hfetch hf hid hstop hr hgap hw h

namespace Stands

theorem pass (h : f.Stands s reads i k w) (millis : Nat) :
    f.Stands s reads i k (w.pass millis) := by
  cases h with
  | looking hf hw => exact .looking hf (hw.pass millis)
  | opening hf hfirst hdue hle hw => exact .opening hf hfirst hdue hle (hw.pass millis)
  | reading hf hid hstop hr hgap hw =>
    exact .reading hf hid hstop (hr.later (Nat.le_add_right _ _)) hgap (hw.pass millis)

theorem shifted (h : f.Stands s reads i k w) (net : σ) :
    f.Stands s reads i k { w with net := net } := by
  cases h with
  | looking hf hw => exact .looking hf (hw.shifted net)
  | opening hf hfirst hdue hle hw => exact .opening hf hfirst hdue hle (hw.shifted net)
  | reading hf hid hstop hr hgap hw => exact .reading hf hid hstop hr hgap (hw.shifted net)

end Stands

end Fetch

end RemoteFile
