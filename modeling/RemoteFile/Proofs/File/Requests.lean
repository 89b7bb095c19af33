import RemoteFile.Proofs.Crowd.Trace
import RemoteFile.Proofs.Fetch.Source
import RemoteFile.Proofs.File.Crowd
import RemoteFile.Proofs.Operation.Source
import RemoteFile.Proofs.Transport.Script

/-!
# The URLs of requests

An attempt takes the current URL when it begins, and may then have to wait for a slot to open a
connection in. If the URL is renewed meanwhile, then the request goes out with the old one all the
same: a request is made at the URL that was current when its attempt began, which is the current
one if and only if no renewal has been counted since.

Main statements:

* `FileRead.sourced_step` : a turn of a read requests a range at the URL of its attempt, or none.
* `FileRead.request_at_url_of_attempt` : that URL was current when the attempt began.
* `FileRead.request_at_replaced_url` : it need not be current any more.
-/

namespace RemoteFile

variable {σ τ : Type} {s : Setting σ τ} {w w₀ w' : World σ}

namespace PoolRead

theorem sourced_step {p : PoolRead τ} {t : Turn (PoolRead τ) (Except Failure (List UInt8))}
    (h : p.step s w = (t, w')) : Fetch.Sourced s w p.attempt? w' (t.next?.bind attempt?) := by
  obtain ⟨ot, hstep, hnext, -⟩ := next?_step h
  have hbind : t.next?.bind attempt? = ot.next?.bind Operation.attempt? := by
    rw [hnext]
    cases ot.next? <;> rfl
  rw [hbind]
  change Fetch.Sourced s w p.operation.attempt? w' _
  cases Operation.sourced hstep with
  | aside ho hw hgo =>
    rw [ho, hgo]
    exact .aside hw
  | begins ho hw hgo =>
    rw [ho, hgo]
    exact .begins hw rfl
  | works ho ha hgo =>
    rw [ho, hgo]
    exact Fetch.sourced ha
  | ends ho ha hw hgo =>
    rw [ho, hgo]
    exact .ends ((Fetch.sourced ha).quiet.trans hw)

theorem quiet_drop (s : Setting σ τ) (p : PoolRead τ) (w : World σ) : w.Quiet (p.drop s w) :=
  Operation.quiet_drop s (Fetch.quiet_drop s) p.operation w

end PoolRead

namespace File

theorem quiet_close (s : Setting σ τ) (info : FileInfo) (w : World σ) :
    w.Quiet (close s info w) := by
  have hcancel : w.Quiet (cancel { w with closed := true }) := .of_eq rfl rfl rfl
  have hclose := hcancel.trans (World.quiet_closePool s _)
  unfold close
  split
  · exact .refl w
  · dsimp only
    split
    · exact hclose.note _
    · exact hclose

end File

namespace FileRead

variable {info : FileInfo} {shift : σ → σ → Prop} {k : Wanted} {r r₁ : FileRead τ} {f f₁ : Fetch τ}
  {c c' c₁ c₂ : Crowd (World σ) Wanted (FileRead τ) (Except Failure (List UInt8))}
  {e : Crowd.Happening Wanted (FileRead τ) (Except Failure (List UInt8))}
  {hs : List (Crowd.Happening Wanted (FileRead τ) (Except Failure (List UInt8)))}

/-- A read is making an attempt. -/
def Tries (r : FileRead τ) : Prop := ∃ f, r.attempt? = some f

theorem sourced_fill {r : FileRead τ} {pieces : List (List UInt8)} {filled : Nat}
    {next : PoolRead τ} {t : Turn (FileRead τ) (Except Failure (List UInt8))}
    (h : r.fill s pieces filled next w = (t, w')) :
    Fetch.Sourced s w next.attempt? w' (t.next?.bind attempt?) := by
  rcases hstep : next.step s w with ⟨tp, w₁⟩
  have hsourced := PoolRead.sourced_step hstep
  simp only [fill, hstep] at h
  cases tp with
  | moved next' | waits next' wake =>
    cases h
    exact hsourced
  | done b =>
    have hquiet := hsourced.quiet
    cases b with
    | error e =>
      cases h
      exact Fetch.sourced_of_quiet hquiet _
    | ok bytes =>
      -- the next piece, if there is one, is wanted but not attempted yet
      simp only [extend] at h
      split at h
      · cases h
        exact Fetch.sourced_of_quiet hquiet _
      · split at h <;> cases h
        · exact Fetch.sourced_of_quiet
            (hquiet.count (f := (·.served (filled + bytes.length))) fun _ => rfl) _
        · exact Fetch.sourced_of_quiet hquiet _

theorem quiet_drop (s : Setting σ τ) (r : FileRead τ) (w : World σ) : w.Quiet (r.drop s w) := by
  unfold drop
  split
  · exact .refl w
  · exact PoolRead.quiet_drop s _ w

/-- **A turn of a read requests a range at the URL of its attempt, or makes no request.** -/
theorem sourced_step {r : FileRead τ} {t : Turn (FileRead τ) (Except Failure (List UInt8))}
    (h : r.step s w = (t, w')) : Fetch.Sourced s w r.attempt? w' (t.next?.bind attempt?) := by
  obtain ⟨offset, len, phase⟩ := r
  simp only [step] at h
  cases phase with
  | starting =>
    simp only [begin] at h
    split at h
    · cases h
      exact .aside (.refl w)
    · split at h
      · cases h
        exact .aside (.refl w)
      · split at h <;> cases h <;> exact .aside (.refl w)
  | filling pieces filled next =>
    dsimp only at h
    split at h
    · cases h
      exact Fetch.sourced_of_quiet ((quiet_drop s _ w).note _) _
    · exact sourced_fill h

theorem quiet_outside (h : Outside s info shift w w') : w.Quiet w' := by
  cases h with
  | pass millis | cancel => exact .of_eq rfl rfl rfl
  | close => exact File.quiet_close s info w
  | shift => exact .of_eq rfl rfl rfl

/-! ### Whose request it is, and since when it has its URL -/

theorem sourced_of_turns {t : Turn (FileRead τ) (Except Failure (List UInt8))}
    (h : Crowd.Does (rules s info shift) c (.turns k r t) c') :
    Fetch.Sourced s c.world r.attempt? c'.world (t.next?.bind attempt?) := by
  cases h with
  | turns l l' rs k hstep => exact sourced_step hstep

theorem renews_of_does (h : Crowd.Does (rules s info shift) c e c') :
    c.world.Renews c'.world := by
  cases h with
  | joins w => exact .refl w
  | turns l l' rs k hstep => exact (sourced_step hstep).renews
  | drops w r => exact (quiet_drop s r w).renews
  | outside ts rs hout => exact (quiet_outside hout).renews

theorem renews_of_trace (h : Crowd.Trace (rules s info shift) c hs c') :
    c.world.Renews c'.world := by
  induction h with
  | nil => exact .refl c.world
  | snoc _ hd ih => exact ih.trans (renews_of_does hd)

/-- **A request is made in a turn of an attempt, at the URL of the attempt.** -/
theorem request_of_does (h : Crowd.Does (rules s info shift) c e c') :
    c'.world.requests = c.world.requests ∨ ∃ k r t f, e = .turns k r t ∧ (k, r) ∈ c.tasks ∧
      r.attempt? = some f ∧ c'.world.resolver = c.world.resolver ∧
      c'.world.requests = (f.source.url, f.range s) :: c.world.requests := by
  cases h with
  | joins w => exact .inl rfl
  | @turns w w' r t l l' rs k hstep =>
    have hsourced := sourced_step hstep
    generalize ho : r.attempt? = o at hsourced
    generalize t.next?.bind attempt? = o' at hsourced
    cases hsourced with
    | aside hw | begins hw | goesOn hw => exact .inl hw.requests
    | @requests f _ _ hw hreq =>
      exact .inr
        ⟨k, r, t, f, rfl, List.mem_append_right l List.mem_cons_self, ho, hw.resolver, hreq⟩
    | ends hw => exact .inl hw.requests
  | drops w r => exact .inl (quiet_drop s r w).requests
  | outside ts rs hout => exact .inl (quiet_outside hout).requests

theorem source_of_lasts (h : Crowd.Lasts (rules s info shift) Tries k c₁ r₁ hs c r)
    (hf₁ : r₁.attempt? = some f₁) (hf : r.attempt? = some f) : f.source = f₁.source := by
  induction h generalizing f with
  | nil =>
    rw [hf₁] at hf
    rw [Option.some.inj hf]
  | waits _ _ _ ih => exact ih hf
  | @turns hs c c' r r' t h hd ht _ hP ih =>
    have hsourced := sourced_of_turns hd
    rw [ht, Option.bind_some, hf] at hsourced
    -- there was an attempt before the turn as well, since the read has been making it all along
    obtain ⟨f₀, hf₀⟩ := h.last
    rw [hf₀] at hsourced
    rw [hsourced.source_eq, ih hf₀]

/-- **The URL of an attempt was current when the attempt began.**  It is the current one now if and
only if no renewal has been counted since. -/
theorem source_of_onset
    (h : Crowd.Onset (rules s info shift) Tries k (Crowd.empty w₀) hs c₁ c r)
    (hf : r.attempt? = some f) :
    f.source = c₁.world.resolver.current ∧
      f.source.generation + (c.world.counters.renewals - c₁.world.counters.renewals) =
        c.world.resolver.current.generation ∧
      (f.source = c.world.resolver.current ↔
        c.world.counters.renewals = c₁.world.counters.renewals) := by
  cases h with
  | @intro after before c₀ _ _ r₀ r₁ _ t ht hd hnot hnext hlasts =>
    obtain ⟨f₁, hf₁⟩ := hlasts.first
    have hbegin := sourced_of_turns hd
    rw [hnext, Option.bind_some, hf₁] at hbegin
    have hnone : r₀.attempt? = none := Option.eq_none_iff_forall_ne_some.2 fun f' hf' =>
      hnot ⟨f', hf'⟩
    rw [hnone] at hbegin
    have hsource : f.source = c₁.world.resolver.current := by
      cases hbegin with
      | begins _ hcurrent => rw [source_of_lasts hlasts hf₁ hf, hcurrent]
    have hrenews := renews_of_trace hlasts.trace
    refine ⟨hsource, ?_, ?_⟩
    · have hgen := hrenews.generation
      have hle := hrenews.renewals_le
      rw [hsource]
      omega
    · rw [hsource, eq_comm]
      exact hrenews.current_eq_iff

/-- **A request is made at the URL that was current when its attempt began.**  Whatever reads join,
take turns and are dropped, and whatever else happens to the file: in each step either no range is
requested, or one range is requested in a turn of a read that is making an attempt. The URL of that
request was current right after the turn in which the read began this attempt, which it has been
making ever since; the current URL is as many generations further on as renewals have been counted
since then, so that the request is made at the current URL if there were none, and at a replaced
one else. -/
theorem request_at_url_of_attempt
    (h : Crowd.Trace (rules s info shift) (Crowd.empty w₀) hs c)
    (hd : Crowd.Does (rules s info shift) c e c') :
    c'.world.requests = c.world.requests ∨
    ∃ k r t f c₁, e = .turns k r t ∧ r.attempt? = some f ∧
      c'.world.resolver = c.world.resolver ∧
      c'.world.requests = (f.source.url, f.range s) :: c.world.requests ∧
      Crowd.Onset (rules s info shift) Tries k (Crowd.empty w₀) hs c₁ c r ∧
      f.source = c₁.world.resolver.current ∧
      f.source.generation + (c.world.counters.renewals - c₁.world.counters.renewals) =
        c.world.resolver.current.generation ∧
      (f.source = c.world.resolver.current ↔
        c.world.counters.renewals = c₁.world.counters.renewals) := by
  rcases request_of_does hd with hnone | ⟨k, r, t, f, he, hmem, hf, hresolver, hreq⟩
  · exact .inl hnone
  · have hstart : ∀ k : Wanted, ¬ ((rules s info shift).start k).Tries := by
      rintro k ⟨f, hf⟩
      cases hf
    obtain ⟨c₁, honset⟩ := h.exists_onset hstart hmem ⟨f, hf⟩
    exact .inr ⟨k, r, t, f, c₁, he, hf, hresolver, hreq, honset, source_of_onset honset hf⟩

/-! ### A request at a URL that was rejected and replaced -/

/-- The first request is rejected, and the second one is answered. -/
def rejectedOnce : World Script.State :=
  World.fresh ⟨[], [⟨some 0, .error (.status 403 "https://example.com/a.bin")⟩,
    ⟨some 0, .ok [.chunk [50, 51, 52, 53]]⟩]⟩ "https://example.com/a.bin" none

/-- A hundred bytes, one connection to read them with, and a renewer that has a URL at once. -/
def oneConn : Setting Script.State Script.Ticket :=
  Script.renewing 100 ⟨1, 0, .ofSeconds 10, none⟩ 3 fun _ =>
    ⟨some 0, .ok ⟨"https://example.com/a.bin?sig=1", none⟩⟩

/-- What is known of the hundred bytes. -/
def hundredBytes : FileInfo := ⟨"a.bin", 100, none, none⟩

/-- The second read waits for a connection while the first one is rejected and renews the URL, and
looks for a connection again. -/
def secondWaits : List (Crowd.Deed Wanted) :=
  [.join ⟨0, 4⟩, .turn 0, .turn 0, .turn 0, .join ⟨50, 4⟩, .turn 1, .turn 1, .turn 1,
    .turn 0, .turn 0, .turn 0, .turn 0, .turn 1]

/-- The first URL was rejected and there is another one, but the next request is made at the first
one. -/
theorem does_secondWaits :
    ∃ hs c e c', Crowd.Trace (rules oneConn hundredBytes fun _ _ => False)
        (Crowd.empty rejectedOnce) hs c ∧
      Crowd.Does (rules oneConn hundredBytes fun _ _ => False) c e c' ∧
      .notice (.rejected 2 (.status 403 "https://example.com/a.bin")) ∈ c.world.journal ∧
      c.world.resolver.current = ⟨"https://example.com/a.bin?sig=1", 1, none⟩ ∧
      c'.world.requests = ("https://example.com/a.bin", ⟨50, some 100⟩) :: c.world.requests := by
  have hplay : ((Crowd.empty rejectedOnce).narrate (rules oneConn hundredBytes fun _ _ => False)
      [] secondWaits).bind (fun x =>
        (x.2.act (rules oneConn hundredBytes fun _ _ => False) (.turn 1)).map fun c' =>
          (x.2.world.journal.contains
              (.notice (.rejected 2 (.status 403 "https://example.com/a.bin"))),
            x.2.world.resolver.current, x.2.world.requests, c'.world.requests)) =
      some (true, ⟨"https://example.com/a.bin?sig=1", 1, none⟩,
        [("https://example.com/a.bin", ⟨0, some 100⟩)],
        [("https://example.com/a.bin", ⟨50, some 100⟩),
          ("https://example.com/a.bin", ⟨0, some 100⟩)]) := rfl
  obtain ⟨⟨hs, c⟩, htold, hseen⟩ := Option.bind_eq_some_iff.1 hplay
  obtain ⟨c', hact, hseen⟩ := Option.map_eq_some_iff.1 hseen
  simp only [Prod.mk.injEq] at hseen
  obtain ⟨hrejected, hcurrent, hbefore, hafter⟩ := hseen
  obtain ⟨x, hx, -⟩ := Option.map_eq_some_iff.1 hact
  have hhappens : Crowd.happens (rules oneConn hundredBytes fun _ _ => False) c (.turn 1) =
      some _ := Option.map_eq_some_iff.2 ⟨x, hx, rfl⟩
  refine ⟨hs, c, _, c', Crowd.trace_of_narrate .nil htold, Crowd.does_of_act hhappens hact,
    List.contains_iff_mem.1 hrejected, hcurrent, ?_⟩
  rw [hbefore, hafter]

/-- The request at the replaced URL is made in an attempt that began when it was current. -/
theorem request_at_url_of_attempt_of_two :
    ∃ hs c e c' k r t f c₁,
      Crowd.Trace (rules oneConn hundredBytes fun _ _ => False) (Crowd.empty rejectedOnce) hs c ∧
      Crowd.Does (rules oneConn hundredBytes fun _ _ => False) c e c' ∧ e = .turns k r t ∧
      r.attempt? = some f ∧ f.source.url = "https://example.com/a.bin" ∧
      Crowd.Onset (rules oneConn hundredBytes fun _ _ => False) Tries k (Crowd.empty rejectedOnce)
        hs c₁ c r ∧
      c₁.world.resolver.current = f.source ∧ f.source ≠ c.world.resolver.current := by
  obtain ⟨hs, c, e, c', ht, hd, -, hcurrent, hreq⟩ := does_secondWaits
  rcases request_at_url_of_attempt ht hd with
    hnone | ⟨k, r, t, f, c₁, he, hf, -, hreq', honset, hsource, -, -⟩
  · rw [hreq] at hnone
    exact absurd hnone (List.cons_ne_self _ _)
  · rw [hreq] at hreq'
    simp only [List.cons.injEq, Prod.mk.injEq, and_true] at hreq'
    refine ⟨hs, c, e, c', k, r, t, f, c₁, ht, hd, he, hf, hreq'.1.symm, honset, hsource.symm, ?_⟩
    intro heq
    have hurl := hreq'.1
    rw [heq, hcurrent] at hurl
    exact absurd hurl (by decide)

/-- Every request is made at the URL that is current at that moment. -/
def RequestsCurrent (s : Setting σ τ) (info : FileInfo) (shift : σ → σ → Prop) (w₀ : World σ) :
    Prop :=
  ∀ c c' url range, Crowd.Reachable (rules s info shift) (Crowd.empty w₀) c →
    Crowd.Step (rules s info shift) c c' →
    c'.world.requests = (url, range) :: c.world.requests → url = c.world.resolver.current.url

/-- **A request is made at a URL that was rejected and replaced.**  The second read took the URL
before it had to wait for the only connection, on which the first read is then rejected. The first
read renews the URL, and the second one requests its range at the rejected one. -/
theorem request_at_replaced_url :
    ¬ RequestsCurrent oneConn hundredBytes (fun _ _ => False) rejectedOnce ∧
      ∃ c c', Crowd.Reachable (rules oneConn hundredBytes fun _ _ => False)
          (Crowd.empty rejectedOnce) c ∧
        Crowd.Step (rules oneConn hundredBytes fun _ _ => False) c c' ∧
        .notice (.rejected 2 (.status 403 "https://example.com/a.bin")) ∈ c.world.journal ∧
        c.world.resolver.current = ⟨"https://example.com/a.bin?sig=1", 1, none⟩ ∧
        c'.world.requests =
          ("https://example.com/a.bin", ⟨50, some 100⟩) :: c.world.requests := by
  obtain ⟨hs, c, e, c', ht, hd, hrejected, hcurrent, hreq⟩ := does_secondWaits
  refine ⟨fun hall => ?_, c, c', ht.reachable, hd.step, hrejected, hcurrent, hreq⟩
  have hurl := hall c c' _ _ ht.reachable hd.step hreq
  rw [hcurrent] at hurl
  exact absurd hurl (by decide)

end FileRead

end RemoteFile
