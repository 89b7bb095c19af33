import RemoteFile.Proofs.File.Held
import RemoteFile.Proofs.File.Sound
import RemoteFile.Proofs.Pool.Progress

/-!
# Reads of a file get on

A read of a file is stitched together from reads through the pool. Each of these yields at least one
byte, so that there are never more of them than bytes are wanted, the check for a read that yields
nothing is never needed, and no position that is computed on the way passes the end of the object.

Main statements:

* `FileRead.poolReads_of_life` : the pieces of a read are the reads through the pool that succeeded.
* `FileRead.reads_get_on` : every read gets on, through the pool and of a file.
-/

namespace RemoteFile

namespace FileRead

variable {σ τ : Type} {s : Setting σ τ} {info : FileInfo} {shift : σ → σ → Prop} {k : Wanted}
  {r r' : FileRead τ} {w w' w₀ : World σ} {pieces : List (List UInt8)} {filled : Nat}
  {next : PoolRead τ} {t : Turn (FileRead τ) (Except Failure (List UInt8))}
  {c : Crowd (World σ) Wanted (FileRead τ) (Except Failure (List UInt8))}

theorem available_le_len (size offset len : Nat) : available size offset len ≤ len :=
  Nat.min_le_left _ _

theorem add_available_le {size offset : Nat} (h : offset ≤ size) (len : Nat) :
    offset + available size offset len ≤ size := by
  unfold available
  omega

theorem available_ne_zero (hr : r.phase = .starting) (h : r.step s w = (t, w'))
    (ht : t.next? = some r') : available s.size r.offset r.len ≠ 0 := by
  intro hnone
  simp only [step, hr, begin, hnone, if_true] at h
  split at h
  · cases h
    cases ht
  · split at h <;> cases h <;> cases ht

theorem ne_nil_of_next? {bytes : List UInt8} {w₁ : World σ}
    (hr : r.phase = .filling pieces filled next) (hp : next.step s w = (.done (.ok bytes), w₁))
    (h : r.step s w = (t, w')) (ht : t.next? = some r') : bytes ≠ [] := by
  rintro rfl
  simp only [step, hr, fill, hp, extend, if_true] at h
  split at h <;> cases h <;> cases ht

/-- A read has so many bytes of those that there are, in no more pieces, and wants the others. -/
structure Measured (s : Setting σ τ) (k : Wanted) (r : FileRead τ) : Prop where
  /-- It reads there. -/
  offset_eq : r.offset = k.offset
  /-- Before it begins it wants as much as was asked for. -/
  starting : r.phase = .starting → r.len = k.len
  /-- Then it wants what there is. -/
  filling : ∀ {pieces : List (List UInt8)} {filled : Nat} {next : PoolRead τ},
    r.phase = .filling pieces filled next → k.offset ≤ s.size ∧
      r.len = available s.size k.offset k.len ∧ pieces.length ≤ filled ∧ filled < r.len

theorem measured_start (s : Setting σ τ) (k : Wanted) :
    (start k.offset k.len : FileRead τ).Measured s k := by
  refine ⟨rfl, fun _ => rfl, ?_⟩
  intro pieces filled next hr
  cases hr

theorem Measured.step (hm : r.Measured s k) (h : r.step s w = (t, w')) (ht : t.next? = some r') :
    r'.Measured s k := by
  have hoffset := hm.offset_eq
  cases turned h with
  | refused | nothing | called | fails | ends => cases ht
  | begins hr hle =>
    have hpos := available_ne_zero hr h ht
    cases ht
    rw [hoffset] at hle
    refine ⟨hoffset, nofun, fun hr' => ?_⟩
    cases hr'
    rw [hoffset, hm.starting hr] at hpos ⊢
    exact ⟨hle, rfl, Nat.le_refl _, Nat.pos_of_ne_zero hpos⟩
  | goesOn hr hstep hp ht' =>
    cases ht'.symm.trans ht
    refine ⟨hoffset, nofun, fun hr' => ?_⟩
    cases hr'
    exact hm.filling hr
  | adds hr hstep hlt =>
    have hpos := List.length_pos_iff.2 (ne_nil_of_next? hr hstep h ht)
    cases ht
    refine ⟨hoffset, nofun, fun hr' => ?_⟩
    cases hr'
    obtain ⟨hle, hlen, hpieces, -⟩ := hm.filling hr
    refine ⟨hle, hlen, ?_, hlt⟩
    rw [List.length_cons]
    omega

/-! ### Counting the reads through the pool -/

/-- A read through the pool succeeds in this turn. -/
def yields (s : Setting σ τ) (x : FileRead τ × World σ) : Bool :=
  match x.1.phase with
  | .starting => false
  | .filling _ _ next =>
    !x.2.cancelled &&
      match (next.step s x.2).1 with
      | .done (.ok _) => true
      | .done (.error _) | .moved _ | .waits _ _ => false

/-- How many reads through the pool succeed in the turns of a read. -/
def poolReads (s : Setting σ τ) (xs : List (FileRead τ × World σ)) : Nat := xs.countP (yields s)

/-- The pieces that are there. -/
def gathered (r : FileRead τ) : List (List UInt8) :=
  match r.phase with
  | .starting => []
  | .filling pieces _ _ => pieces

/-- A read that goes on has one more piece for each read through the pool that succeeds. -/
theorem length_gathered_step (h : r.step s w = (t, w')) (ht : t.next? = some r') :
    r'.gathered.length = r.gathered.length + if yields s (r, w) then 1 else 0 := by
  have hcalled : ∀ {pieces filled next}, r.phase = .filling pieces filled next →
      w.cancelled = false := by
    intro pieces filled next hr
    cases hc : w.cancelled with
    | false => rfl
    | true =>
      simp only [step, hr, hc, if_true] at h
      cases h
      cases ht
  cases turned h with
  | refused | nothing | called | fails | ends => cases ht
  | begins hr =>
    cases ht
    simp [gathered, yields, hr]
  | @goesOn w' ps filled next next' tp t hr hstep hp ht' =>
    cases ht'.symm.trans ht
    have hnone : yields s (r, w) = false := by
      simp only [yields, hr, hstep, hcalled hr]
      cases tp with
      | moved | waits => rfl
      | done => cases hp
    simp [gathered, hr, hnone]
  | adds hr hstep hlt =>
    cases ht
    have hone : yields s (r, w) = true := by
      simp [yields, hr, hstep, hcalled hr]
    simp [gathered, hr, hone]

theorem Measured.length_gathered_lt (hm : r.Measured s k) (hr : r.phase ≠ .starting) :
    r.gathered.length < available s.size k.offset k.len := by
  cases hphase : r.phase with
  | starting => exact absurd hphase hr
  | filling ps filled next =>
    obtain ⟨-, hlen, hle, hlt⟩ := hm.filling hphase
    simp only [gathered, hphase]
    omega

/-- **The pieces of a read are the reads through the pool that succeeded**, and there are never more
of these than bytes are wanted and there. -/
theorem poolReads_of_life {xs : List (FileRead τ × World σ)}
    (h : Crowd.Lives (rules s info shift) k xs c t) :
    (∀ r, t.next? = some r → r.Measured s k ∧ poolReads s xs = r.gathered.length) ∧
      poolReads s xs ≤ available s.size k.offset k.len := by
  induction h with
  | joins hd =>
    refine ⟨fun r hr => ?_, Nat.zero_le _⟩
    cases hr
    exact ⟨measured_start s k, rfl⟩
  | waits _ _ ih => exact ih
  | @turns xs c c' r t t' _ hr hd ih =>
    obtain ⟨hm, hcount⟩ := ih.1 r hr
    have hstep : r.step s c.world = (t', c'.world) := hd.step_of_turns
    constructor
    · intro r' hr'
      have hgathered := length_gathered_step hstep hr'
      refine ⟨hm.step hstep hr', ?_⟩
      rw [poolReads, List.countP_cons, hgathered, ← hcount]
      rfl
    · -- only a read that has begun reads through the pool
      rw [poolReads, List.countP_cons]
      cases hy : yields s (r, c.world) with
      | false => exact ih.2
      | true =>
        have hne : r.phase ≠ .starting := by
          intro hphase
          rw [yields, hphase] at hy
          cases hy
        have hlt := hm.length_gathered_lt hne
        rw [← hcount] at hlt
        exact hlt

/-! ### Positions -/

/-- A read makes its reads through the pool where it should. -/
structure Fits (s : Setting σ τ) (k : Wanted) (r : FileRead τ) : Prop
    extends Measured s k r where
  /-- The next piece is read after those that are there. -/
  next : ∀ {pieces : List (List UInt8)} {filled : Nat} {next : PoolRead τ},
    r.phase = .filling pieces filled next → next.Fits s ⟨k.offset + filled, r.len - filled⟩

theorem fits_start (s : Setting σ τ) (k : Wanted) :
    (start k.offset k.len : FileRead τ).Fits s k := by
  refine ⟨measured_start s k, ?_⟩
  intro pieces filled next hr
  cases hr

theorem Fits.step (hf : r.Fits s k) (hidle : ∀ c ∈ w.pool.idle, c.stop ≤ s.size)
    (h : r.step s w = (t, w')) (ht : t.next? = some r') : r'.Fits s k := by
  refine ⟨hf.toMeasured.step h ht, ?_⟩
  have hoffset := hf.offset_eq
  intro pieces filled next hr'
  cases turned h with
  | refused | nothing | called | fails | ends => cases ht
  | begins hr hle =>
    cases ht
    cases hr'
    rw [hoffset]
    exact PoolRead.fits_start s ⟨k.offset, _⟩
  | goesOn hr hstep hp ht' =>
    cases ht'.symm.trans ht
    cases hr'
    exact (hf.next hr).step hidle hstep hp
  | adds hr hstep hlt =>
    cases ht
    cases hr'
    rw [hoffset]
    exact PoolRead.fits_start s ⟨_, _⟩

theorem fits (h : Crowd.Reachable (rules s info shift) (Crowd.empty w₀) c)
    (h₀ : w₀.pool = Pool.fresh) : ∀ x ∈ c.tasks, x.2.Fits s x.1 := by
  refine h.tasks (T := fun k r => r.Fits s k) (fits_start s) fun hreach hf hstep hnext => ?_
  exact hf.step (fun d hd => ((Crowd.custody pooling hreach h₀).idle d hd).2) hstep hnext

/-- A read of a file gets on: each of its reads through the pool does, and no position that it
computes lies past the end of the object. -/
structure Progresses (s : Setting σ τ) (k : Wanted) (w : World σ) (r : FileRead τ) : Prop where
  /-- It wants no more than there is. -/
  inside : ∀ {pieces : List (List UInt8)} {filled : Nat} {next : PoolRead τ},
    r.phase = .filling pieces filled next → r.len = available s.size k.offset k.len ∧
      r.offset + r.len ≤ s.size ∧ filled < r.len
  /-- The next piece is on its way. -/
  next : ∀ {pieces : List (List UInt8)} {filled : Nat} {next : PoolRead τ},
    r.phase = .filling pieces filled next →
      next.Progresses s ⟨r.offset + filled, r.len - filled⟩ w
  /-- It has bytes, and no more than are wanted. -/
  piece : ∀ {pieces : List (List UInt8)} {filled : Nat} {next : PoolRead τ} {bytes : List UInt8}
    {w' : World σ}, r.phase = .filling pieces filled next →
    next.step s w = (.done (.ok bytes), w') → bytes ≠ [] ∧ filled + bytes.length ≤ r.len

theorem Fits.progresses (hf : r.Fits s k) (hsize : s.size < positionLimit)
    (hmax : s.options.pool.maxRangeLen ≠ some 0) (w : World σ) : r.Progresses s k w := by
  have hoffset := hf.offset_eq
  have hinside : ∀ {pieces : List (List UInt8)} {filled : Nat} {next : PoolRead τ},
      r.phase = .filling pieces filled next → r.len = available s.size k.offset k.len ∧
        r.offset + r.len ≤ s.size ∧ filled < r.len := by
    intro pieces filled next hr
    obtain ⟨hle, hlen, -, hlt⟩ := hf.filling hr
    refine ⟨hlen, ?_, hlt⟩
    rw [hoffset, hlen]
    exact add_available_le hle _
  have hnext : ∀ {pieces : List (List UInt8)} {filled : Nat} {next : PoolRead τ},
      r.phase = .filling pieces filled next →
        next.Progresses s ⟨r.offset + filled, r.len - filled⟩ w := by
    intro pieces filled next hr
    obtain ⟨-, hend, hlt⟩ := hinside hr
    have hfits := hf.next hr
    rw [← hoffset] at hfits
    exact hfits.progresses (by dsimp only; omega) (by dsimp only; omega) hsize hmax w
  refine ⟨hinside, hnext, fun hr hp => ?_⟩
  obtain ⟨hpos, f, x, -, -, -, -, hlength⟩ := (hnext hr).yields _ _ hp
  obtain ⟨-, -, hlt⟩ := hinside hr
  refine ⟨List.ne_nil_of_length_pos hpos, ?_⟩
  simp only at hlength
  omega

/-- **Reads get on.**  Let requests not be limited to no byte at all.

Whatever reads through a pool join, take their turns, end and are dropped, and whenever the pool is
closed: a read that wants bytes and has one at its position begins to read on every connection that
it is given, and if it succeeds, then it yields at least one byte, and as many as are wanted unless
the connection ends before.

So does every read of a file through its pool. It makes at most as many of these reads as it wants
bytes, none of them yields nothing, and no position lies past the end of the object, which is a
number of 64 bits. -/
theorem reads_get_on (hmax : s.options.pool.maxRangeLen ≠ some 0) (hsize : s.size < positionLimit)
    (h₀ : w₀.pool = Pool.fresh) :
    (∀ c : Crowd (World σ) Wanted (PoolRead τ) (Except Failure (List UInt8)),
      Crowd.Reachable (PoolRead.rules s shift) (Crowd.empty w₀) c →
      ∀ k p, (k, p) ∈ c.tasks → k.offset < s.size → 0 < k.len → p.Progresses s k c.world) ∧
    (∀ c : Crowd (World σ) Wanted (FileRead τ) (Except Failure (List UInt8)),
      Crowd.Reachable (rules s info shift) (Crowd.empty w₀) c →
      ∀ k r, (k, r) ∈ c.tasks → r.Progresses s k c.world) ∧
    ∀ k xs c t, Crowd.Lives (rules s info shift) k xs c t →
      poolReads s xs ≤ available s.size k.offset k.len ∧ poolReads s xs ≤ k.len ∧
      ∀ r, t.next? = some r → r.phase ≠ .starting →
        poolReads s xs < available s.size k.offset k.len := by
  refine ⟨fun c hc k p hp hoffset hlen => ?_, fun c hc k r hr => ?_, fun k xs c t h => ?_⟩
  · exact (PoolRead.fits hc h₀ _ hp).progresses hoffset hlen hsize hmax c.world
  · exact (fits hc h₀ _ hr).progresses hsize hmax c.world
  · obtain ⟨hnext, hle⟩ := poolReads_of_life h
    refine ⟨hle, Nat.le_trans hle (available_le_len _ _ _), fun r hr hphase => ?_⟩
    obtain ⟨hm, hcount⟩ := hnext r hr
    rw [hcount]
    exact hm.length_gathered_lt hphase

/-- Five bytes, of which one request asks for two at most, once their number is known. -/
def fiveBytesFound : Setting Unit Call := fiveBytes.ofSize 5

/-- Nobody has read any of the five bytes. -/
def fiveBytesUnread : World Unit := World.fresh () "https://example.com/a.bin" none

/-- Three bytes are wanted at 1: a read through the pool, which is under way, gets two of them, and
a read of the file makes no more than three such reads. -/
theorem reads_get_on_with_three_bytes :
    (∃ c p, Crowd.Reachable (PoolRead.rules fiveBytesFound fun _ _ => False)
        (Crowd.empty fiveBytesUnread) c ∧ (⟨1, 3⟩, p) ∈ c.tasks ∧
      p.Progresses fiveBytesFound ⟨1, 3⟩ c.world) ∧
    ∃ hs c xs, Crowd.Trace (rules fiveBytesFound fiveBytesInfo fun _ _ => False)
        (Crowd.empty fiveBytesUnread) hs c ∧
      Crowd.Lives (rules fiveBytesFound fiveBytesInfo fun _ _ => False) ⟨1, 3⟩ xs c
        (.done (.ok [11, 12, 13])) ∧
      poolReads fiveBytesFound xs ≤ 3 := by
  obtain ⟨hpool, -, hlives⟩ :=
    @reads_get_on _ _ fiveBytesFound fiveBytesInfo (fun _ _ => False) fiveBytesUnread
      (by decide) (by decide) rfl
  constructor
  · have hplay : ((Crowd.empty fiveBytesUnread).play
        (PoolRead.rules fiveBytesFound fun _ _ => False)
        (.join ⟨1, 3⟩ :: List.replicate 3 (.turn 0))).map (fun c => c.tasks.map Prod.fst) =
          some [⟨1, 3⟩] := rfl
    obtain ⟨c, hc, htasks⟩ := Crowd.reachable_of_play _ hplay
    obtain ⟨⟨k, p⟩, hp, rfl⟩ := List.map_eq_singleton_iff.1 htasks
    have hmem : (⟨1, 3⟩, p) ∈ c.tasks := hp ▸ List.mem_singleton_self _
    exact ⟨c, p, hc, hmem, hpool c hc _ _ hmem (by decide) (by decide)⟩
  · have hplay : (Crowd.narrate (rules fiveBytesFound fiveBytesInfo fun _ _ => False) []
        (.join ⟨1, 3⟩ :: List.replicate 13 (.turn 0)) (Crowd.empty fiveBytesUnread)).map
          (fun x => x.2.results) = some [(⟨1, 3⟩, .ok [11, 12, 13])] := rfl
    obtain ⟨⟨hs, c⟩, hnarrate, hresults⟩ := Option.map_eq_some_iff.1 hplay
    have htrace := Crowd.trace_of_narrate .nil hnarrate
    obtain ⟨xs, hlife⟩ := htrace.exists_life.2 (⟨1, 3⟩, .ok [11, 12, 13])
      (hresults ▸ List.mem_singleton_self _)
    exact ⟨hs, c, xs, htrace, hlife, (hlives _ _ _ _ hlife).2.1⟩

end FileRead

end RemoteFile
