import RemoteFile.Proofs.Crowd.Chronicle
import RemoteFile.Proofs.Crowd.Life
import RemoteFile.Proofs.File.Conservation
import RemoteFile.Proofs.File.Progress
import RemoteFile.Proofs.Pool.Bytes

/-!
# The bytes of a file add up

Bytes are counted as dropped while they are dropped, by whatever attempt and whatever becomes of it,
and as served when a read has all that it wants. In between they are in hand. So what all
connections have yielded was dropped or copied, and what was copied is served, in hand, or lost with
an attempt or a read that has failed or was dropped.

An attempt begins when its URL is chosen, which comes right after the piece before it; so a read
that has some pieces makes an attempt or is about to, and is lost with it.

Main statements:

* `FileRead.recorded` : the record of all connections is right in every run.
* `FileRead.served_eq` : what is counted as served is what the reads have returned.
* `FileRead.copied_eq` : what was copied is served or in hand, if nothing was lost.
* `FileRead.bytes_add_up` : all of this for a file, from when it is opened on.
-/

namespace RemoteFile

namespace FileRead

variable {σ τ : Type}

/-- What has happened in a world of reads. -/
abbrev Moment (σ τ : Type) :=
  World σ × Crowd.Happening Wanted (FileRead τ) (Except Failure (List UInt8))

/-- The attempt that takes a turn as a read does: none if reads are called off. -/
def mover? (r : FileRead τ) (w : World σ) : Option (Fetch τ) :=
  if w.cancelled then none else r.attempt?

/-- The turns that attempts have taken, each with the world that it found, the latest first. -/
def moves (ms : List (Moment σ τ)) : List (World σ × Fetch τ) :=
  ms.flatMap fun x =>
    match x.2 with
    | .joins _ | .drops _ _ | .outside => []
    | .turns _ r _ => (r.mover? x.1).toList.map (x.1, ·)

/-- How many bytes a read has returned. -/
def returned : Except Failure (List UInt8) → Nat
  | .ok bytes => bytes.length
  | .error _ => 0

/-- How many bytes all reads have returned that succeeded. -/
def served (c : Crowd (World σ) Wanted (FileRead τ) (Except Failure (List UInt8))) : Nat :=
  (c.results.map fun x => returned x.2).sum

/-- How many bytes a read has copied that has not ended. -/
def inHand (r : FileRead τ) : Nat := r.gathered.flatten.length + r.attempt?.elim 0 Fetch.inHand

/-- How many bytes all reads have copied that have not ended. -/
def underWay (c : Crowd (World σ) Wanted (FileRead τ) (Except Failure (List UInt8))) : Nat :=
  (c.tasks.map fun x => x.2.inHand).sum

/-- The read makes an attempt, or is about to after some pieces. -/
def busy (r : FileRead τ) : Bool := r.attempt?.isSome || !r.gathered.isEmpty

/-- An attempt fails or is dropped, by itself or together with its read. -/
def loses (s : Setting σ τ) (x : Moment σ τ) : Bool :=
  match x.2 with
  | .joins _ | .outside => false
  | .turns _ r t => ((r.mover? x.1).any fun f => (f.step s x.1).1.failed) || (t.failed && r.busy)
  | .drops _ r => r.busy

variable {s : Setting σ τ} {info : FileInfo} {shift : σ → σ → Prop} {k : Wanted}
  {r r' : FileRead τ} {w w' w₀ w₁ : World σ} {pieces : List (List UInt8)} {filled : Nat}
  {next : PoolRead τ} {t : Turn (FileRead τ) (Except Failure (List UInt8))}
  {tp : Turn (PoolRead τ) (Except Failure (List UInt8))} {ms : List (Moment σ τ)}
  {c : Crowd (World σ) Wanted (FileRead τ) (Except Failure (List UInt8))}

/-! ### What a turn of a read counts -/

theorem mover?_of_attempt?_eq_none (h : r.attempt? = none) (w : World σ) : r.mover? w = none := by
  rw [mover?, h]
  exact ite_self none

theorem mover?_of_filling (hr : r.phase = .filling pieces filled next) (hc : w.cancelled = false) :
    r.mover? w = next.attempt? := by
  rw [mover?, attempt?_of_filling hr, hc, if_neg Bool.false_ne_true]

theorem step_of_filling (hr : r.phase = .filling pieces filled next) (hc : w.cancelled = false) :
    r.step s w = r.fill s pieces filled next w := by
  simp only [step, hr, hc, Bool.false_eq_true, if_false]

theorem step_of_called (hr : r.phase = .filling pieces filled next) (hc : w.cancelled = true) :
    r.step s w =
      (.done (.error .cancelled), (next.drop s w).note (.readCancelled r.offset r.len)) := by
  simp only [step, hr, hc, if_true, drop]

theorem discarded_fill (hp : next.step s w = (tp, w₁))
    (h : r.fill s pieces filled next w = (t, w')) :
    w'.counters.bytesDiscarded = w₁.counters.bytesDiscarded := by
  simp only [fill, hp] at h
  split at h <;> rename_i heq <;> cases heq
  · cases h
    rfl
  · cases h
    rfl
  · cases h
    rfl
  · simp only [extend] at h
    split at h
    · cases h
      rfl
    · split at h <;> cases h <;> rfl

theorem length_stitched (bytes : List UInt8) (pieces : List (List UInt8)) :
    (bytes :: pieces).reverse.flatten.length = pieces.flatten.length + bytes.length := by
  rw [List.reverse_cons, List.flatten_append, List.length_append, List.flatten_singleton,
    List.length_flatten, List.length_flatten, List.map_reverse, List.sum_reverse]

theorem served_fill (hp : next.step s w = (tp, w₁)) (hfilled : pieces.flatten.length = filled)
    (h : r.fill s pieces filled next w = (t, w')) (hfull : w₁.counters.bytesServed < counterLimit) :
    w'.counters.bytesServed =
      (w₁.counters.bytesServed + t.result?.elim 0 returned) % counterLimit := by
  have hrest : w₁.counters.bytesServed = (w₁.counters.bytesServed + 0) % counterLimit :=
    (Nat.mod_eq_of_lt hfull).symm
  simp only [fill, hp] at h
  split at h <;> rename_i heq <;> cases heq
  · cases h
    exact hrest
  · cases h
    exact hrest
  · cases h
    exact hrest
  · rename_i bytes
    simp only [extend] at h
    split at h
    · cases h
      exact hrest
    · split at h <;> cases h
      · have hlength := length_stitched bytes pieces
        rw [hfilled] at hlength
        simp only [Turn.result?_done, Option.elim_some, returned, hlength]
        rfl
      · exact hrest

/-- The bytes of the pieces that a read has are counted. -/
def Filled (r : FileRead τ) : Prop :=
  ∀ pieces filled next, r.phase = .filling pieces filled next → pieces.flatten.length = filled

theorem Filled.step (hf : r.Filled) (h : r.step s w = (t, w')) (ht : t.next? = some r') :
    r'.Filled := by
  intro pieces filled next hr'
  cases turned h with
  | refused | nothing | called | fails | ends => cases ht
  | begins =>
    cases ht
    cases hr'
    rfl
  | goesOn hr hstep hp ht' =>
    cases ht'.symm.trans ht
    cases hr'
    exact hf _ _ _ hr
  | adds hr hstep hlt =>
    cases ht
    cases hr'
    rw [List.flatten_cons, List.length_append, hf _ _ _ hr, Nat.add_comm]

theorem served_step (hf : r.Filled) (h : r.step s w = (t, w'))
    (hserved : w.counters.bytesServed < counterLimit)
    (hdropped : w.counters.bytesDiscarded < counterLimit) :
    w'.counters.bytesServed =
      (w.counters.bytesServed + t.result?.elim 0 returned) % counterLimit := by
  have hrest : w.counters.bytesServed = (w.counters.bytesServed + 0) % counterLimit :=
    (Nat.mod_eq_of_lt hserved).symm
  cases hr : r.phase with
  | starting =>
    simp only [step, hr, begin] at h
    split at h
    · cases h
      exact hrest
    · split at h
      · cases h
        exact hrest
      · split at h <;> cases h <;> exact hrest
  | filling pieces filled next =>
    cases hc : w.cancelled with
    | true =>
      rw [step_of_called hr hc] at h
      cases h
      exact (congrArg Prod.fst (PoolRead.bytes_drop s next w)).trans hrest
    | false =>
      rw [step_of_filling hr hc] at h
      rcases hp : next.step s w with ⟨tp, w₁⟩
      have hpool := PoolRead.served_step hp hdropped
      rw [← hpool] at hserved ⊢
      exact served_fill hp (hf _ _ _ hr) h hserved

theorem tracks_step (h : r.step s w = (t, w')) :
    Fetch.Tracks s w r.attempt? (r.mover? w) w' (t.next?.bind attempt?) := by
  cases hr : r.phase with
  | starting =>
    have hnone := attempt?_of_starting hr
    rw [hnone, mover?_of_attempt?_eq_none hnone]
    cases turned h with
    | refused | nothing | begins => exact .aside none (.refl w) rfl nofun
    | called hr' | goesOn hr' | fails hr' | ends hr' | adds hr' => cases hr.symm.trans hr'
  | filling pieces filled next =>
    rw [mover?, attempt?_of_filling hr]
    cases hc : w.cancelled with
    | true =>
      rw [step_of_called hr hc] at h
      cases h
      exact (PoolRead.tracks_drop s next w).beside ((World.Beside.refl _).note _) rfl
    | false =>
      have hfill := h
      rw [step_of_filling hr hc] at hfill
      cases turned h with
      | refused hr' | nothing hr' | begins hr' => cases hr.symm.trans hr'
      | called _ hc' => cases hc.symm.trans hc'
      | goesOn hr' hstep hp ht =>
        cases hr.symm.trans hr'
        have htracks := PoolRead.tracks_step hstep
        rw [hp] at htracks
        rw [ht]
        exact htracks
      | fails hr' hstep | adds hr' hstep =>
        cases hr.symm.trans hr'
        exact PoolRead.tracks_step hstep
      | ends hr' hstep _ hw =>
        cases hr.symm.trans hr'
        exact (PoolRead.tracks_step hstep).beside hw.beside (discarded_fill hstep hfill)

theorem tracks_drop (s : Setting σ τ) (r : FileRead τ) (w : World σ) :
    Fetch.Tracks s w r.attempt? none (r.drop s w) none := by
  obtain ⟨offset, len, phase⟩ := r
  cases phase with
  | starting => exact .aside none (.refl w) rfl nofun
  | filling pieces filled next => exact PoolRead.tracks_drop s next w

theorem bytes_drop (s : Setting σ τ) (r : FileRead τ) (w : World σ) :
    (r.drop s w).bytes = w.bytes := by
  unfold drop
  split
  · rfl
  · exact PoolRead.bytes_drop s _ w

theorem Outside.counters (h : Outside s info shift w w') : w'.counters = w.counters := by
  obtain ⟨w₁, hpool, halike⟩ := h.alike
  refine halike.counters.trans ?_
  cases hpool with
  | pass | shift => rfl
  | close => rw [World.closePool_eq]

/-! ### Every run -/

theorem attempts_next (w : World σ) (ls rs : List (Wanted × FileRead τ)) (k : Wanted)
    (t : Turn (FileRead τ) (Except Failure (List UInt8)))
    (bs : List (Wanted × Except Failure (List UInt8))) :
    Crowd.attempts attempt? ⟨w, ls ++ (t.next?.map (k, ·)).toList ++ rs, bs⟩ =
      ls.filterMap (fun x => attempt? x.2) ++ (t.next?.bind attempt?).toList ++
        rs.filterMap fun x => attempt? x.2 := by
  cases t.next? with
  | none => simp [Crowd.attempts]
  | some r =>
    simp only [Option.map_some, Option.toList_some, Option.bind_some, List.append_assoc,
      List.singleton_append]
    rw [Crowd.attempts_split, List.append_assoc]

/-- **The record of all connections is right in every run.** -/
theorem recorded (h : Crowd.Chronicle (rules s info shift) (Crowd.empty w₀) ms c)
    (h₀ : w₀.pool = Pool.fresh) (hopened : w₀.counters.connsOpened = 0)
    (hdropped : w₀.counters.bytesDiscarded = 0) :
    Fetch.Recorded s c.world (c.attempts attempt?) (moves ms) := by
  induction h with
  | nil => exact Fetch.recorded_nil h₀ hopened hdropped
  | @snoc ms c c' e hchronicle hd ih =>
    have hapart := (Crowd.custody pooling hchronicle.reachable h₀).apart
    cases hd with
    | joins w ts rs k =>
      refine ih.keep (fun g hg => .inl ?_) (fun e he => he) (Nat.le_refl _) rfl rfl
      simpa [Crowd.attempts, rules, start, attempt?] using hg
    | @turns w w' r t ls rs bs k h =>
      rw [Crowd.attempts_split] at ih hapart
      have hrec := (tracks_step h).recorded ih hapart
      rw [attempts_next]
      exact hrec
    | drops w r ls rs bs k =>
      rw [Crowd.attempts_split] at ih hapart
      have hrec := (tracks_drop s r w).recorded ih hapart
      rw [Option.toList_none, List.append_nil] at hrec
      have hattempts : Crowd.attempts attempt? ⟨r.drop s w, ls ++ rs, bs⟩ =
        ls.filterMap (fun x => attempt? x.2) ++ rs.filterMap fun x => attempt? x.2 :=
          List.filterMap_append
      rw [← hattempts] at hrec
      exact hrec
    | @outside w w' ts bs hout =>
      obtain ⟨w₁, hpool, halike⟩ := Outside.alike hout
      have hcounters := Outside.counters hout
      have hpasses : Fetch.Passes w.pool ([] : List (Fetch τ)) w₁.pool [] :=
        PoolRead.Outside.passes hpool
      have hnext := hpasses.nextId
      rw [← halike.pool] at hnext
      refine ih.keep (fun g hg => .inl hg) (fun e he => ?_) hnext
        (congrArg Counters.connsOpened hcounters) (congrArg Counters.bytesDiscarded hcounters)
      rw [halike.pool] at he
      exact PoolRead.Outside.idle hpool he

theorem filled_of_reachable (h : Crowd.Reachable (rules s info shift) (Crowd.empty w₀) c) :
    ∀ x ∈ c.tasks, x.2.Filled := by
  refine h.tasks (T := fun _ r => r.Filled) (fun k => ?_)
    fun _ hf hstep hnext => hf.step hstep hnext
  intro pieces filled next hr
  cases hr

theorem served_next (w : World σ) (ts : List (Wanted × FileRead τ)) (k : Wanted)
    (t : Turn (FileRead τ) (Except Failure (List UInt8)))
    (bs : List (Wanted × Except Failure (List UInt8))) :
    served ⟨w, ts, (t.result?.map (k, ·)).toList ++ bs⟩ =
      t.result?.elim 0 returned + (bs.map fun x => returned x.2).sum := by
  cases t.result? with
  | none => exact (Nat.zero_add _).symm
  | some b => rfl

/-- **What is counted as served is what the reads have returned.** -/
theorem served_eq (h : Crowd.Chronicle (rules s info shift) (Crowd.empty w₀) ms c)
    (h₀ : w₀.pool = Pool.fresh) (hopened : w₀.counters.connsOpened = 0)
    (hdropped : w₀.counters.bytesDiscarded = 0) (hserved : w₀.counters.bytesServed = 0) :
    c.world.counters.bytesServed = served c % counterLimit := by
  induction h with
  | nil => exact hserved
  | @snoc ms c c' e hchronicle hd ih =>
    have hcounted := (recorded hchronicle h₀ hopened hdropped).dropped
    have hfilled := filled_of_reachable hchronicle.reachable
    cases hd with
    | joins => exact ih
    | @turns w w' r t ls rs bs k h =>
      have hlimit : ∀ n, n % counterLimit < counterLimit := fun n => Nat.mod_lt n (by decide)
      have hstep := served_step (hfilled (k, r) (by simp)) h (ih ▸ hlimit _) (hcounted ▸ hlimit _)
      rw [served_next]
      refine hstep.trans ?_
      have ih : w.counters.bytesServed = (bs.map fun x => returned x.2).sum % counterLimit := ih
      rw [ih, Nat.mod_add_mod, Nat.add_comm]
    | drops w r => exact (congrArg Prod.fst (bytes_drop s r w)).trans ih
    | outside ts bs hout =>
      exact (congrArg Counters.bytesServed (Outside.counters hout)).trans ih

/-! ### Runs in which nothing is lost -/

theorem inHand_of_starting (hr : r.phase = .starting) : r.inHand = 0 := by
  rw [inHand, gathered, attempt?, hr]
  rfl

theorem inHand_of_filling (hr : r.phase = .filling pieces filled next) :
    r.inHand = pieces.flatten.length + next.attempt?.elim 0 Fetch.inHand := by
  rw [inHand, gathered, attempt?, hr]

/-- A read that does nothing but to choose the URL of its first attempt has nothing. -/
theorem inHand_of_not_busy (h : r.busy = false) : r.inHand = 0 := by
  simp only [busy, Bool.or_eq_false_iff, Option.isSome_eq_false_iff, Option.isNone_iff_eq_none,
    Bool.not_eq_false', List.isEmpty_iff] at h
  rw [inHand, h.1, h.2]
  rfl

theorem mover?_of_not_busy (h : r.busy = false) (w : World σ) : r.mover? w = none := by
  simp only [busy, Bool.or_eq_false_iff, Option.isSome_eq_false_iff,
    Option.isNone_iff_eq_none] at h
  exact mover?_of_attempt?_eq_none h.1 w

theorem attempt?_start (offset len : Nat) :
    (PoolRead.start offset len : PoolRead τ).attempt? = none := rfl

theorem inHand_step (h : r.step s w = (t, w')) (hl : loses s (w, .turns k r t) = false) :
    t.result?.elim 0 returned + t.next?.elim 0 inHand =
      r.inHand + (r.mover? w).elim 0 Fetch.copying := by
  simp only [loses, Bool.or_eq_false_iff, Option.any_eq_false] at hl
  obtain ⟨hattempt, hread⟩ := hl
  -- a read that fails had nothing
  have hfails : ∀ e, t = .done (.error e) → r.inHand = 0 ∧ r.mover? w = none := by
    rintro e rfl
    exact ⟨inHand_of_not_busy hread, mover?_of_not_busy hread w⟩
  cases hr : r.phase with
  | starting =>
    rw [inHand_of_starting hr, mover?_of_attempt?_eq_none (attempt?_of_starting hr)]
    cases turned h with
    | refused | nothing | begins => rfl
    | called hr' | goesOn hr' | fails hr' | ends hr' | adds hr' => cases hr.symm.trans hr'
  | filling pieces filled next =>
    have hhand := inHand_of_filling hr
    cases hc : w.cancelled with
    | true =>
      rw [step_of_called hr hc] at h
      cases h
      obtain ⟨hnone, hmover⟩ := hfails _ rfl
      rw [hnone, hmover]
      rfl
    | false =>
      have hmover := mover?_of_filling hr hc
      cases turned h with
      | refused hr' | nothing hr' | begins hr' => cases hr.symm.trans hr'
      | called _ hc' => cases hc.symm.trans hc'
      | goesOn hr' hstep hp ht =>
        cases hr.symm.trans hr'
        have hnext := PoolRead.inHand_step hstep (hmover ▸ hattempt) hp
        have hresult : t.result? = none := by
          cases t with
          | moved | waits => rfl
          | done => cases ht
        rw [hmover, hhand, hresult, ht]
        simp only [Option.elim_none, Option.elim_some, inHand, gathered, attempt?]
        omega
      | fails hr' hstep =>
        obtain ⟨hnone, hmover⟩ := hfails _ rfl
        rw [hnone, hmover]
        rfl
      | ends hr' hstep hle hw =>
        cases hr.symm.trans hr'
        have hbytes := PoolRead.inHand_done hstep
        rw [hmover, hhand]
        simp only [Turn.result?_done, Turn.next?_done, Option.elim_some, Option.elim_none,
          returned, length_stitched]
        omega
      | adds hr' hstep hlt =>
        cases hr.symm.trans hr'
        have hbytes := PoolRead.inHand_done hstep
        rw [hmover, hhand]
        simp only [Turn.result?_moved, Turn.next?_moved, Option.elim_some, Option.elim_none,
          inHand, gathered, attempt?, attempt?_start, List.flatten_cons, List.length_append]
        omega

theorem underWay_next (w : World σ) (ls rs : List (Wanted × FileRead τ)) (k : Wanted)
    (t : Turn (FileRead τ) (Except Failure (List UInt8)))
    (bs : List (Wanted × Except Failure (List UInt8))) :
    underWay ⟨w, ls ++ (t.next?.map (k, ·)).toList ++ rs, bs⟩ =
      (ls.map fun x => x.2.inHand).sum + t.next?.elim 0 inHand +
        (rs.map fun x => x.2.inHand).sum := by
  cases t.next? <;> simp [underWay, Nat.add_assoc]

theorem underWay_split (w : World σ) (ls rs : List (Wanted × FileRead τ)) (k : Wanted)
    (r : FileRead τ) (bs : List (Wanted × Except Failure (List UInt8))) :
    underWay ⟨w, ls ++ (k, r) :: rs, bs⟩ =
      (ls.map fun x => x.2.inHand).sum + r.inHand + (rs.map fun x => x.2.inHand).sum := by
  simp [underWay, Nat.add_assoc]

theorem copied_moves (w : World σ) (k : Wanted) (r : FileRead τ)
    (t : Turn (FileRead τ) (Except Failure (List UInt8))) (ms : List (Moment σ τ)) :
    Fetch.copied (moves ((w, .turns k r t) :: ms)) =
      (r.mover? w).elim 0 Fetch.copying + Fetch.copied (moves ms) := by
  have hmoves : moves ((w, .turns k r t) :: ms) =
    (r.mover? w).toList.map (w, ·) ++ moves ms := List.flatMap_cons
  rw [hmoves, Fetch.copied, List.map_append, List.sum_append]
  cases r.mover? w <;> rfl

/-- **What was copied is served or in hand, if nothing was lost.** -/
theorem copied_eq (h : Crowd.Chronicle (rules s info shift) (Crowd.empty w₀) ms c)
    (hl : ∀ x ∈ ms, loses s x = false) : Fetch.copied (moves ms) = served c + underWay c := by
  induction h with
  | nil => rfl
  | @snoc ms c c' e hchronicle hd ih =>
    have ih := ih fun x hx => hl x (List.mem_cons_of_mem _ hx)
    have hlast := hl _ List.mem_cons_self
    cases hd with
    | joins w ts rs k =>
      -- a read that joins has nothing in hand
      have hunder : underWay ⟨w, ts ++ [(k, (rules s info shift).start k)], rs⟩ =
          underWay ⟨w, ts, rs⟩ := by
        rw [underWay, List.map_append, List.sum_append]
        rfl
      rw [hunder]
      exact ih
    | @turns w w' r t ls rs bs k h =>
      have hhand := inHand_step h hlast
      rw [copied_moves, served_next, underWay_next, ih, underWay_split, served]
      dsimp only
      omega
    | drops w r ls rs bs k =>
      have hnone := inHand_of_not_busy hlast
      rw [underWay_split, hnone, Nat.add_zero] at ih
      have hunder : underWay ⟨r.drop s w, ls ++ rs, bs⟩ =
          (ls.map fun x => x.2.inHand).sum + (rs.map fun x => x.2.inHand).sum := by
        rw [underWay, List.map_append, List.sum_append]
      rw [← hunder] at ih
      exact ih
    | outside ts bs hout => exact ih

/-! ### From when a file is opened on -/

/-- **Bytes add up.**  Let a file be opened, and let any reads of it join, take their turns, fail,
end, be called off and be dropped, whatever happens besides.

What is counted as served is what the reads have returned that succeeded, and nothing else. All
connections that were ever opened are recorded, and what they have yielded are the bytes that were
dropped, all of which are counted, and those that attempts have copied. If no attempt has failed or
was dropped, then what was copied is served, or in the hands of the reads that have not ended. So if
all of them have ended, the connections have yielded what is counted as dropped or as served. -/
theorem bytes_add_up (s : Setting σ τ) (info : FileInfo) (shift : σ → σ → Prop) (net : σ)
    (url : String) (expiresAt : Option Int)
    {o : Crowd (World σ) Url (Opening τ) (Except Failure FileInfo)}
    (hopen : Crowd.Reachable (File.rules s shift) (Crowd.empty (World.fresh net url expiresAt)) o)
    (h : Crowd.Chronicle (rules (s.ofSize info.size) info shift) (Crowd.empty o.world) ms c) :
    c.world.counters.bytesServed = served c % counterLimit ∧
    Fetch.Recorded (s.ofSize info.size) c.world (c.attempts attempt?) (moves ms) ∧
    ((Fetch.spans (s.ofSize info.size) (moves ms)).map Span.used).sum % counterLimit =
      (c.world.counters.bytesDiscarded + Fetch.copied (moves ms)) % counterLimit ∧
    ((∀ x ∈ ms, loses (s.ofSize info.size) x = false) →
      Fetch.copied (moves ms) = served c + underWay c ∧
      (c.tasks = [] →
        ((Fetch.spans (s.ofSize info.size) (moves ms)).map Span.used).sum % counterLimit =
          (c.world.counters.bytesDiscarded + c.world.counters.bytesServed) % counterLimit)) := by
  have hpool : o.world.pool = Pool.fresh := File.pool_of_opening hopen
  have hopened : o.world.counters.connsOpened = 0 := (File.unread_of_opening hopen).opened
  have hbytes := File.bytes_of_opening hopen
  have hzero : o.world.counters.bytesServed = 0 := congrArg Prod.fst hbytes
  have hdropped : o.world.counters.bytesDiscarded = 0 := congrArg Prod.snd hbytes
  have hserved := served_eq h hpool hopened hdropped hzero
  have hrec := recorded h hpool hopened hdropped
  have hsum : ((Fetch.spans (s.ofSize info.size) (moves ms)).map Span.used).sum % counterLimit =
      (c.world.counters.bytesDiscarded + Fetch.copied (moves ms)) % counterLimit := by
    rw [hrec.used, hrec.dropped, Nat.mod_add_mod]
  refine ⟨hserved, hrec, hsum, fun hl => ?_⟩
  have hcopied := copied_eq h hl
  refine ⟨hcopied, fun hnone => ?_⟩
  have hunder : underWay c = 0 := by
    rw [underWay, hnone]
    rfl
  rw [hsum, hcopied, hunder, hserved, Nat.add_zero, Nat.add_mod_mod]

/-- The five bytes, of which one request asks for four at most, and two may be skipped. -/
def skippedBytes : Setting Unit Call :=
  { fiveBytes with options := { Options.standard with pool := ⟨1, 2, .ofSeconds 10, some 4⟩ } }

/-- The file of the five bytes is opened. -/
def openSkipped : Option (Crowd (World Unit) Url (Opening Call) (Except Failure FileInfo)) :=
  (Crowd.empty (World.fresh () "https://example.com/a.bin" none)).play
    (File.rules skippedBytes fun _ _ => False) (.join fiveBytesUrl :: List.replicate 3 (.turn 0))

/-- Its first byte is read, and then the last two. -/
def readSkipped (o : Crowd (World Unit) Url (Opening Call) (Except Failure FileInfo)) :
    Option (List (Moment Unit Call) ×
      Crowd (World Unit) Wanted (FileRead Call) (Except Failure (List UInt8))) :=
  Crowd.recount (rules (skippedBytes.ofSize 5) fiveBytesInfo fun _ _ => False) []
    (.join ⟨0, 1⟩ :: List.replicate 6 (.turn 0) ++ .join ⟨3, 2⟩ :: List.replicate 11 (.turn 0))
    (Crowd.empty o.world)

/-- Two connections have yielded five bytes, of which two were dropped and three were served. -/
theorem bytes_add_up_for_five :
    ∃ o ms c, Crowd.Reachable (File.rules skippedBytes fun _ _ => False)
        (Crowd.empty (World.fresh () "https://example.com/a.bin" none)) o ∧
      Crowd.Chronicle (rules (skippedBytes.ofSize 5) fiveBytesInfo fun _ _ => False)
        (Crowd.empty o.world) ms c ∧
      (∀ x ∈ ms, loses (skippedBytes.ofSize 5) x = false) ∧ c.tasks = [] ∧
      Fetch.spans (skippedBytes.ofSize 5) (moves ms) = [⟨2, 4, 5⟩, ⟨1, 0, 4⟩] ∧
      c.world.counters.bytesDiscarded = 2 ∧ c.world.counters.bytesServed = 3 ∧
      5 % counterLimit =
        (c.world.counters.bytesDiscarded + c.world.counters.bytesServed) % counterLimit := by
  have hplay : (openSkipped.bind readSkipped).map (fun x =>
      (x.1.all fun y => !loses (skippedBytes.ofSize 5) y, x.2.tasks.length,
        Fetch.spans (skippedBytes.ofSize 5) (moves x.1), x.2.world.bytes)) =
      some (true, 0, [⟨2, 4, 5⟩, ⟨1, 0, 4⟩], 3, 2) := rfl
  obtain ⟨⟨ms, c⟩, hread, hview⟩ := Option.map_eq_some_iff.1 hplay
  obtain ⟨o, hopen, hrecount⟩ := Option.bind_eq_some_iff.1 hread
  obtain ⟨_, ho⟩ := Crowd.path_of_play .nil hopen
  have hc := Crowd.chronicle_of_recount .nil hrecount
  simp only [Prod.mk.injEq, List.all_eq_true, Bool.not_eq_true', List.length_eq_zero_iff] at hview
  obtain ⟨hl, htasks, hspans, hbytes⟩ := hview
  obtain ⟨-, -, -, hall⟩ := bytes_add_up skippedBytes fiveBytesInfo (fun _ _ => False) ()
    "https://example.com/a.bin" none ho.reachable hc
  have htotal := (hall hl).2 htasks
  have hspans' : Fetch.spans (skippedBytes.ofSize fiveBytesInfo.size) (moves ms) =
    [⟨2, 4, 5⟩, ⟨1, 0, 4⟩] := hspans
  rw [hspans'] at htotal
  exact ⟨o, ms, c, ho.reachable, hc, hl, htasks, hspans, congrArg Prod.snd hbytes,
    congrArg Prod.fst hbytes, htotal⟩

end FileRead

end RemoteFile
