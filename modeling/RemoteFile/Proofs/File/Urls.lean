import RemoteFile.Proofs.File.Bytes
import RemoteFile.Proofs.File.Requests
import RemoteFile.Proofs.Operation.Urls
import RemoteFile.Proofs.Pool.Books

/-!
# The URLs that a file is read from

A file is opened only at a URL of the web. All the URLs that are called for afterwards, by a probe
or for a range, are this one or were offered by the renewer. An offer has to be a URL, but not one
of the web: it becomes the current URL whatever its scheme.

Main statements:

* `Fetch.calls_step` : an attempt calls for its range at its URL, or for nothing.
* `File.confined_of_opening`, `FileRead.confined_of_reading` : files are opened and read at URLs
  that were given or offered.
* `FileRead.called_urls_were_offered` : so that every URL that is called for can be parsed, and is
  one of the web if all offers are.
* `FileRead.offer_of_another_scheme` : an offer need not be.
-/

namespace RemoteFile

variable {σ τ : Type} {P : String → Prop} {s : Setting σ τ} {w w₀ w₁ w' : World σ}

/-! ### Attempts -/

namespace Fetch

variable {f f' : Fetch τ} {t : Turn (Fetch τ) (Except Failure (List UInt8))}

theorem calls_request (h : f.request s w₁ = (t, w'))
    (hcalls : Event.calls w₁.journal = Event.calls w.journal) :
    Event.calls w'.journal = .openRange f.source.url (f.range s) :: Event.calls w.journal := by
  obtain ⟨-, -, -, -, notices, hjournal⟩ := requested h
  rw [hjournal, Event.calls_notices, ← hcalls]
  rfl

/-- **An attempt calls for its range at its URL, or for nothing.** -/
theorem calls_step (h : f.step s w = (t, w')) :
    Event.calls w'.journal = Event.calls w.journal ∨
      Event.calls w'.journal = .openRange f.source.url (f.range s) :: Event.calls w.journal := by
  have hsweep := (World.calls_of_tells (w.uncalled_sweep s)).1
  have hcollect : ∀ {ticket : τ} {r : Except Failure Body} {w₁ : World σ},
      w.collect s ticket = (r, w₁) → Event.calls w₁.journal = Event.calls w.journal :=
    fun hcol => (World.calls_of_tells (World.unbooked_collect hcol).calls).1
  have hread : ∀ {r : Reading} {tr : Turn Reading (Except Failure (List UInt8) × Connection)}
      {w₁ : World σ}, r.step s.options.timeouts.idle w = (tr, w₁) →
        Event.calls w₁.journal = Event.calls w.journal :=
    fun hr => (World.calls_of_tells (Reading.unbooked_step True hr).calls).1
  cases turned h with
  | refused | rouses | dozes | expects | expires => exact .inl rfl
  | reuses | parks => exact .inl hsweep
  | reserves _ _ _ hr | replaces _ _ _ hr => exact .inr (calls_request hr hsweep)
  | denied _ hcol | opens _ hcol | wastes _ hcol =>
    have hcalls := hcollect hcol
    exact .inl hcalls
  | reads _ hr | breaks _ hr =>
    have hcalls := hread hr
    exact .inl hcalls
  | @finishes r bytes c w₁ _ hr =>
    refine .inl (Eq.trans ?_ (hread hr))
    rcases w₁.giveBack_eq s c with ⟨heq, -⟩ | ⟨heq, -⟩ <;> rw [heq] <;> rfl

theorem confined_step (hw : w.Confined P) (hf : P f.source.url) (h : f.step s w = (t, w')) :
    t.Confines P (fun f => P f.source.url) w' := by
  have hcurrent := congrArg Resolver.current (unrenewed_step h).resolver
  refine ⟨?_, fun f' hf' => ?_⟩
  · rcases calls_step h with hcalls | hcalls
    · exact hw.of_eq hcurrent hcalls
    · exact hw.of_call hcurrent hcalls hf
  · have hsourced := sourced h
    rw [hf'] at hsourced
    rw [hsourced.source_eq]
    exact hf

theorem confined_drop (hw : w.Confined P) (f : Fetch τ) : (f.drop s w).Confined P := by
  unfold drop
  split <;> exact hw.of_eq rfl rfl

end Fetch

/-! ### Opening -/

namespace Probing

variable {p : Probing τ} {t : Turn (Probing τ) (Except Failure Probe)}

/-- A probe that was not sent yet is about to go to a URL of `P`. -/
def Confined (P : String → Prop) : Probing τ → Prop
  | .unsent url => P url
  | .sent _ _ => True

theorem confined_step (hw : w.Confined P) (hp : p.Confined P) (h : p.step s w = (t, w')) :
    t.Confines P (·.Confined P) w' := by
  cases p with
  | unsent url =>
    simp only [step, World.issue_eq, ← List.map_reverse] at h
    cases h
    exact Turn.confines_of_next (hw.of_call rfl (Event.calls_notices _ _) hp) rfl trivial
  | sent ticket deadline =>
    simp only [step] at h
    split at h <;> cases h
    · exact Turn.confines_of_next hw rfl trivial
    · exact Turn.confines_of_done hw _
    · exact Turn.confines_of_done (hw.of_eq rfl rfl) _

end Probing

namespace File

variable {shift : σ → σ → Prop} {o : Opening τ} {t : Turn (Opening τ) (Except Failure FileInfo)}

theorem confined_openStep (hP : ∀ url, s.Offers url → P url) (hw : w.Confined P)
    (ho : o.probe.Confined P (·.Confined P)) (h : openStep s o w = (t, w')) :
    t.Confines P (fun o => o.probe.Confined P (·.Confined P)) w' := by
  rcases hstep : o.probe.step s (Probing.attempts s) w with ⟨ot, w₁⟩
  have hturn := Operation.confined_step hP (fun _ _ hsource => hsource)
    (fun hp ha => Probing.confined_step hw hp ha) hw ho hstep
  simp only [openStep, hstep] at h
  cases ot with
  | moved p | waits p wake =>
    cases h
    exact Turn.confines_of_next hturn.world rfl (hturn.next p rfl)
  | done b =>
    cases b with
    | error e =>
      cases h
      exact Turn.confines_of_done hturn.world _
    | ok found =>
      cases h
      exact Turn.confines_of_done (hturn.world.note _) _

/-- **A file is opened with URLs that were given or offered.** -/
theorem confined_of_opening {c : Crowd (World σ) Url (Opening τ) (Except Failure FileInfo)}
    (hP : ∀ url, s.Offers url → P url) (hw : w₀.Confined P)
    (h : Crowd.Reachable (rules s shift) (Crowd.empty w₀) c) : c.world.Confined P := by
  refine h.confined (T := fun o => o.probe.Confined P (·.Confined P)) hw (fun _ => trivial)
    (fun hw ho hstep => confined_openStep hP hw ho hstep) (fun o hw => ?_) fun hw hout => ?_
  · exact Operation.confined_drop (fun _ => hw) hw o.probe
  · cases hout with
    | pass | shift => exact hw.of_eq rfl rfl

end File

/-! ### Reads -/

namespace PoolRead

variable {p : PoolRead τ} {t : Turn (PoolRead τ) (Except Failure (List UInt8))}

/-- A read makes its attempts at URLs of `P`. -/
def Confined (P : String → Prop) (p : PoolRead τ) : Prop :=
  p.operation.Confined P fun f => P f.source.url

theorem confined_step (hP : ∀ url, s.Offers url → P url) (hw : w.Confined P) (hp : p.Confined P)
    (h : p.step s w = (t, w')) : t.Confines P (·.Confined P) w' := by
  obtain ⟨ot, hstep, hnext, -⟩ := next?_step h
  have hturn := Operation.confined_step hP (fun _ _ hsource => hsource)
    (fun hf ha => Fetch.confined_step hw hf ha) hw hp hstep
  refine ⟨hturn.world, fun p' hp' => ?_⟩
  rw [hnext] at hp'
  obtain ⟨o, ho, rfl⟩ := Option.map_eq_some_iff.1 hp'
  exact hturn.next o ho

theorem confined_drop (hw : w.Confined P) (p : PoolRead τ) : (p.drop s w).Confined P :=
  Operation.confined_drop (Fetch.confined_drop hw) hw p.operation

end PoolRead

namespace FileRead

variable {info : FileInfo} {shift : σ → σ → Prop} {r : FileRead τ}
  {t : Turn (FileRead τ) (Except Failure (List UInt8))}

/-- A read makes its reads through the pool at URLs of `P`. -/
def Confined (P : String → Prop) (r : FileRead τ) : Prop :=
  match r.phase with
  | .starting => True
  | .filling _ _ next => next.Confined P

theorem confined_fill {pieces : List (List UInt8)} {filled : Nat} {next : PoolRead τ}
    (hP : ∀ url, s.Offers url → P url) (hw : w.Confined P) (hnext : next.Confined P)
    (h : r.fill s pieces filled next w = (t, w')) : t.Confines P (·.Confined P) w' := by
  rcases hstep : next.step s w with ⟨tp, w₁⟩
  have hturn := PoolRead.confined_step hP hw hnext hstep
  simp only [fill, hstep] at h
  cases tp with
  | moved next' | waits next' wake =>
    cases h
    exact Turn.confines_of_next hturn.world rfl (hturn.next next' rfl)
  | done b =>
    cases b with
    | error e =>
      cases h
      exact Turn.confines_of_done hturn.world _
    | ok bytes =>
      simp only [extend] at h
      split at h
      · cases h
        exact Turn.confines_of_done hturn.world _
      · split at h <;> cases h
        · have hserved : (w₁.count (·.served (filled + bytes.length))).Confined P :=
            hturn.world.of_eq rfl rfl
          exact Turn.confines_of_done hserved _
        · exact Turn.confines_of_next hturn.world rfl trivial

theorem confined_drop (hw : w.Confined P) (r : FileRead τ) : (r.drop s w).Confined P := by
  unfold drop
  split
  · exact hw
  · exact PoolRead.confined_drop hw _

/-- **A read of a file confines the world.** -/
theorem confined_step (hP : ∀ url, s.Offers url → P url) (hw : w.Confined P) (hr : r.Confined P)
    (h : r.step s w = (t, w')) : t.Confines P (·.Confined P) w' := by
  obtain ⟨offset, len, phase⟩ := r
  cases phase with
  | starting =>
    simp only [step, begin] at h
    split at h
    · cases h
      exact Turn.confines_of_done hw _
    · split at h
      · cases h
        exact Turn.confines_of_done hw _
      · split at h <;> cases h
        · exact Turn.confines_of_done hw _
        · exact Turn.confines_of_next hw rfl trivial
  | filling pieces filled next =>
    cases hc : w.cancelled with
    | true =>
      rw [step_of_called rfl hc] at h
      cases h
      exact Turn.confines_of_done ((PoolRead.confined_drop hw next).note _) _
    | false =>
      rw [step_of_filling rfl hc] at h
      exact confined_fill hP hw hr h

theorem confined_outside (hw : w.Confined P) (h : Outside s info shift w w') : w'.Confined P := by
  cases h with
  | pass | cancel | shift => exact hw.of_eq rfl rfl
  | close =>
    have hclosed : ((File.cancel { w with closed := true }).closePool s).Confined P := by
      rw [World.closePool_eq]
      exact hw.of_eq rfl rfl
    unfold File.close
    split
    · exact hw
    · dsimp only
      split
      · exact hclosed.note _
      · exact hclosed

variable {c : Crowd (World σ) Wanted (FileRead τ) (Except Failure (List UInt8))}

/-- **A file is read from URLs that were given or offered.** -/
theorem confined_of_reading (hP : ∀ url, s.Offers url → P url) (hw : w₀.Confined P)
    (h : Crowd.Reachable (rules s info shift) (Crowd.empty w₀) c) : c.world.Confined P :=
  h.confined hw (fun _ => trivial) (fun hw hr hstep => confined_step hP hw hr hstep)
    (fun r hw => confined_drop hw r) confined_outside

/-- **What is called for was given or offered.**  A file is opened at a URL of the web, and is then
read in whatever way, with a renewer that behaves as it likes.

The current URL is the one that the file was opened at or one that the renewer has offered. So is
every URL that is called for, to probe the object or to open a range of it, and it can be parsed.
All of them are URLs of the web if the renewer offers no other ones.

Whenever it answers, in whatever world, a URL that cannot be parsed makes the renewal fail, and the
current URL stays what it was, with its generation. But one that can be parsed is current from then
on, with the next generation, be it one of the web or not. -/
theorem called_urls_were_offered {net : σ} {url : String} {expiresAt : Option Int} {u : Url}
    {o : Crowd (World σ) Url (Opening τ) (Except Failure FileInfo)}
    (hurl : File.checked s.options url = .ok u)
    (hopen : Crowd.Reachable (File.rules s shift) (Crowd.empty (World.fresh net url expiresAt)) o)
    (h : Crowd.Reachable (rules (s.ofSize info.size) info shift) (Crowd.empty o.world) c) :
    (c.world.resolver.current.url = url ∨ s.Offers c.world.resolver.current.url) ∧
    (∀ call ∈ Event.calls c.world.journal,
      (call.url = url ∨ s.Offers call.url) ∧ ∃ v, Url.parse call.url = .ok v) ∧
    ((∀ x v, s.Offers x → Url.parse x = .ok v → v.isRemote = true) →
      ∀ call ∈ Event.calls c.world.journal, ∃ v, Url.ofRemote call.url = .ok v) ∧
    ∀ {n ticket : Nat} {r : Renewal} {due : Option Nat} {outcome : Except Failure FreshUrl}
      {b : Except Failure Source} {w w' : World σ}, r.phase = .asking ticket due outcome →
      r.step (s.ofSize n) w = (.done b, w') →
      ((∀ signed v, outcome = .ok signed → Url.parse signed.url ≠ .ok v) →
        (∃ reason, b = .error (.renewal reason)) ∧
          w'.resolver.current = w.resolver.current) ∧
      ∀ signed v, outcome = .ok signed → Url.parse signed.url = .ok v →
        b = .ok w'.resolver.current ∧ w'.resolver.current =
          ⟨signed.url, w.resolver.current.generation + 1, signed.expiresAt⟩ := by
  obtain ⟨hparse, hremote⟩ := Url.ofRemote_eq_ok_iff.1 (File.checked_ok hurl).2
  -- at first there is one URL, and nothing was called for
  have h₀ : (World.fresh net url expiresAt).Confined fun x => x = url ∨ s.Offers x := by
    refine ⟨.inl rfl, ?_⟩
    rintro _ ⟨⟩
  have hopened := File.confined_of_opening (fun _ => .inr) h₀ hopen
  have hread := confined_of_reading (s := s.ofSize info.size) (fun _ => .inr) hopened h
  have hparses : ∀ call ∈ Event.calls c.world.journal, ∃ v, Url.parse call.url = .ok v := by
    intro call hcall
    rcases hread.calls call hcall with heq | hoffer
    · exact ⟨u, heq ▸ hparse⟩
    · exact hoffer.parses
  refine ⟨hread.current, fun call hcall => ⟨hread.calls call hcall, hparses call hcall⟩,
    fun hweb call hcall => ?_, Renewal.current_of_answer⟩
  obtain ⟨v, hv⟩ := hparses call hcall
  refine ⟨v, Url.ofRemote_eq_ok_iff.2 ⟨hv, ?_⟩⟩
  rcases hread.calls call hcall with heq | hoffer
  · rw [heq] at hv
    cases hparse.symm.trans hv
    exact hremote
  · exact hweb _ _ hoffer hv

/-! ### An offer of another scheme -/

/-- The first request is rejected, and the second one is answered. -/
def probedOnce : World Script.State :=
  World.fresh ⟨[⟨some 0, .ok ⟨100, none, none⟩⟩],
    [⟨some 0, .error (.status 403 "https://example.com/a.bin")⟩,
      ⟨some 0, .ok [.chunk [0, 1, 2, 3]]⟩]⟩ "https://example.com/a.bin" none

/-- A hundred bytes, and a renewer that has a URL at once, but not one of the web. -/
def elsewhere : Setting Script.State Script.Ticket :=
  Script.renewing 100 ⟨1, 0, .ofSeconds 10, none⟩ 3 fun _ =>
    ⟨some 0, .ok ⟨"ftp://example.com/a.bin", none⟩⟩

/-- The file of the hundred bytes is opened. -/
def openElsewhere :
    Option (Crowd (World Script.State) Url (Opening Script.Ticket) (Except Failure FileInfo)) :=
  (Crowd.empty probedOnce).play (File.rules elsewhere fun _ _ => False)
    (.join fiveBytesUrl :: List.replicate 3 (.turn 0))

/-- The first read is rejected, renews the URL and makes its request at the one that was offered. -/
theorem reads_elsewhere :
    ∃ o c, Crowd.Reachable (File.rules elsewhere fun _ _ => False) (Crowd.empty probedOnce) o ∧
      (fiveBytesUrl, .ok hundredBytes) ∈ o.results ∧
      Crowd.Reachable (rules (elsewhere.ofSize hundredBytes.size) hundredBytes fun _ _ => False)
        (Crowd.empty o.world) c ∧
      c.results = [(⟨0, 4⟩, .ok [0, 1, 2, 3])] ∧
      Event.calls c.world.journal =
        [.openRange "ftp://example.com/a.bin" ⟨0, some 100⟩,
          .openRange "https://example.com/a.bin" ⟨0, some 100⟩,
          .probe "https://example.com/a.bin"] ∧
      c.world.resolver.current = ⟨"ftp://example.com/a.bin", 1, none⟩ := by
  have hopening : openElsewhere = some (openElsewhere.get rfl) := rfl
  obtain ⟨opened, ho⟩ := Crowd.path_of_play .nil hopening
  have hinfo : (fiveBytesUrl, .ok hundredBytes) ∈ (openElsewhere.get rfl).results :=
    List.mem_cons_self
  have hreading : ((Crowd.empty (openElsewhere.get rfl).world).play
      (rules (elsewhere.ofSize hundredBytes.size) hundredBytes fun _ _ => False)
      (.join ⟨0, 4⟩ :: List.replicate 12 (.turn 0))).map (fun c =>
        (c.results, Event.calls c.world.journal, c.world.resolver.current)) =
      some ([(⟨0, 4⟩, .ok [0, 1, 2, 3])],
        [.openRange "ftp://example.com/a.bin" ⟨0, some 100⟩,
          .openRange "https://example.com/a.bin" ⟨0, some 100⟩,
          .probe "https://example.com/a.bin"], ⟨"ftp://example.com/a.bin", 1, none⟩) := rfl
  obtain ⟨c, hc, hview⟩ := Crowd.reachable_of_play _ hreading
  simp only [Prod.mk.injEq] at hview
  exact ⟨_, c, ho.reachable, hinfo, hc, hview⟩

theorem checked_elsewhere :
    File.checked elsewhere.options "https://example.com/a.bin" = .ok fiveBytesUrl := rfl

/-- All URLs that are called for there were given or offered, and can be parsed. -/
theorem called_urls_were_offered_elsewhere :
    ∃ o c, Crowd.Reachable (File.rules elsewhere fun _ _ => False) (Crowd.empty probedOnce) o ∧
      Crowd.Reachable (rules (elsewhere.ofSize hundredBytes.size) hundredBytes fun _ _ => False)
        (Crowd.empty o.world) c ∧
      (∀ call ∈ Event.calls c.world.journal,
        (call.url = "https://example.com/a.bin" ∨ elsewhere.Offers call.url) ∧
          ∃ v, Url.parse call.url = .ok v) ∧
      .openRange "ftp://example.com/a.bin" ⟨0, some 100⟩ ∈ Event.calls c.world.journal ∧
      ∃ b w', Renewal.step (elsewhere.ofSize hundredBytes.size)
          ⟨⟨"https://example.com/a.bin", 0, none⟩, false,
            .asking 0 (some 0) (.ok ⟨"not a url", none⟩)⟩ probedOnce = (.done b, w') ∧
        (∃ reason, b = .error (.renewal reason)) ∧
        w'.resolver.current = ⟨"https://example.com/a.bin", 0, none⟩ := by
  obtain ⟨o, c, ho, -, hc, -, hcalls, -⟩ := reads_elsewhere
  obtain ⟨-, hurls, -, hanswers⟩ := called_urls_were_offered checked_elsewhere ho hc
  have hanswer : Renewal.step (elsewhere.ofSize hundredBytes.size)
      ⟨⟨"https://example.com/a.bin", 0, none⟩, false,
        .asking 0 (some 0) (.ok ⟨"not a url", none⟩)⟩ probedOnce = (.done _, _) := rfl
  obtain ⟨hfails, hsame⟩ := (hanswers rfl hanswer).1 (by
    rintro signed v ⟨⟩ hparse
    cases hparse)
  refine ⟨o, c, ho, hc, hurls, ?_, _, _, hanswer, hfails, hsame⟩
  rw [hcalls]
  exact List.mem_cons_self

/-- All URLs that are called for are ones of the web, if the first one is. -/
def CallsRemote (s : Setting σ τ) (info : FileInfo) (shift : σ → σ → Prop) : Prop :=
  ∀ (net : σ) (url : String) (expiresAt : Option Int) (u : Url)
    (o : Crowd (World σ) Url (Opening τ) (Except Failure FileInfo))
    (c : Crowd (World σ) Wanted (FileRead τ) (Except Failure (List UInt8))),
    File.checked s.options url = .ok u →
    Crowd.Reachable (File.rules s shift) (Crowd.empty (World.fresh net url expiresAt)) o →
    Crowd.Reachable (rules (s.ofSize info.size) info shift) (Crowd.empty o.world) c →
    ∀ call ∈ Event.calls c.world.journal, ∃ v, Url.ofRemote call.url = .ok v

/-- **An offer need not be a URL of the web.**  A file is opened at a URL that would be refused if
it were of another scheme. Its first request is rejected, and the renewer has a URL of `ftp`. The
renewal succeeds, the URL is current from then on, and the next request is made at it. -/
theorem offer_of_another_scheme :
    ¬ CallsRemote elsewhere hundredBytes (fun _ _ => False) ∧
      (∃ e, Url.ofRemote "ftp://example.com/a.bin" = .error e) ∧
      ∃ o c, Crowd.Reachable (File.rules elsewhere fun _ _ => False) (Crowd.empty probedOnce) o ∧
        Crowd.Reachable (rules (elsewhere.ofSize hundredBytes.size) hundredBytes fun _ _ => False)
          (Crowd.empty o.world) c ∧
        .openRange "ftp://example.com/a.bin" ⟨0, some 100⟩ ∈ Event.calls c.world.journal ∧
        c.world.resolver.current = ⟨"ftp://example.com/a.bin", 1, none⟩ := by
  obtain ⟨o, c, ho, -, hc, -, hcalls, hcurrent⟩ := reads_elsewhere
  have hmem : .openRange "ftp://example.com/a.bin" ⟨0, some 100⟩ ∈ Event.calls c.world.journal := by
    rw [hcalls]
    exact List.mem_cons_self
  have hrefused : ∃ e, Url.ofRemote "ftp://example.com/a.bin" = .error e := ⟨_, rfl⟩
  refine ⟨fun hall => ?_, hrefused, o, c, ho, hc, hmem, hcurrent⟩
  obtain ⟨v, hv⟩ := hall _ _ _ _ o c checked_elsewhere ho hc _ hmem
  obtain ⟨e, he⟩ := hrefused
  cases he.symm.trans hv

end FileRead

end RemoteFile
