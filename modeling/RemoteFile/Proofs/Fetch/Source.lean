import RemoteFile.Proofs.Fetch.Turn
import RemoteFile.Proofs.World.Requests

/-!
# The URL that an attempt requests

An attempt keeps the URL that it began with, and requests its range there whenever it has found a
slot to open a connection in. No other turn of it makes a request, and none touches the resolver.

Main statements:

* `Fetch.sourced` : a turn of an attempt requests a range at the URL of the attempt, or none.
* `Fetch.unrenewed_step` : it leaves the resolver alone.
-/

namespace RemoteFile

variable {σ τ : Type}

/-- The range that an attempt requests. -/
def Fetch.range (s : Setting σ τ) (f : Fetch τ) : ByteRange :=
  ByteRange.between f.offset (rangeStop f.offset s.size s.options.pool.maxRangeLen)

/-- What one step of a task does to the requests, to the URL, and to the attempt that the task
makes. -/
inductive Fetch.Sourced (s : Setting σ τ) (w : World σ) :
    Option (Fetch τ) → World σ → Option (Fetch τ) → Prop
  /-- There is no attempt. -/
  | aside {w' : World σ} (hw : w.Quiet w') : Sourced s w none w' none
  /-- An attempt begins, with the current URL. -/
  | begins {f : Fetch τ} {w' : World σ} (hw : w.Quiet w')
      (hsource : f.source = w'.resolver.current) : Sourced s w none w' (some f)
  /-- The attempt goes on without a request. -/
  | goesOn {f f' : Fetch τ} {w' : World σ} (hw : w.Quiet w') (hsource : f'.source = f.source) :
      Sourced s w (some f) w' (some f')
  /-- The attempt requests its range at its URL. -/
  | requests {f f' : Fetch τ} {w' : World σ} (hw : w.Unrenewed w')
      (hreq : w'.requests = (f.source.url, f.range s) :: w.requests)
      (hsource : f'.source = f.source) : Sourced s w (some f) w' (some f')
  /-- The attempt ends. -/
  | ends {f : Fetch τ} {w' : World σ} (hw : w.Quiet w') : Sourced s w (some f) w' none

variable {s : Setting σ τ} {w w₁ w' : World σ}

theorem Fetch.Sourced.quiet {o : Option (Fetch τ)} (h : Sourced s w o w' none) : w.Quiet w' := by
  cases h with
  | aside hw | ends hw => exact hw

theorem Fetch.Sourced.renews {o o' : Option (Fetch τ)} (h : Sourced s w o w' o') :
    w.Renews w' := by
  cases h with
  | aside hw | begins hw | goesOn hw => exact hw.renews
  | requests hw => exact .of_unrenewed hw
  | ends hw => exact hw.renews

theorem Fetch.Sourced.source_eq {f f' : Fetch τ} (h : Sourced s w (some f) w' (some f')) :
    f'.source = f.source := by
  cases h with
  | goesOn _ hsource | requests _ _ hsource => exact hsource

theorem Fetch.sourced_of_quiet (h : w.Quiet w') (o : Option (Fetch τ)) :
    Sourced s w o w' none := by
  cases o with
  | none => exact .aside h
  | some f => exact .ends h

namespace Reading

variable {idle : Duration} {r : Reading}
  {t : Turn Reading (Except Failure (List UInt8) × Connection)}

theorem quiet_noteSkip (r : Reading) (w : World σ) : w.Quiet (r.noteSkip w) := by
  simp only [noteSkip]
  have hcount := (World.Quiet.refl w).count (f := (·.discarded r.dropped)) fun _ => rfl
  split
  · exact hcount.note _
  · exact hcount

theorem quiet_step (h : r.step idle w = (t, w')) : w.Quiet w' := by
  simp only [step] at h
  split at h
  · cases h
    exact quiet_noteSkip r w
  · split at h <;> cases h <;> exact quiet_noteSkip r w

/-- Reading on a connection leaves the resolver alone. -/
theorem unrenewed_step (h : r.step idle w = (t, w')) : w.Unrenewed w' := by
  have hskip : w.Unrenewed (r.noteSkip w) := by
    simp only [noteSkip]
    split <;> exact ⟨rfl, rfl⟩
  simp only [step] at h
  split at h
  · cases h
    exact hskip
  · split at h <;> cases h <;> exact hskip

end Reading

namespace Fetch

variable {f : Fetch τ} {t : Turn (Fetch τ) (Except Failure (List UInt8))}

theorem unrenewed_request (h : f.request s w = (t, w')) : w.Unrenewed w' := by
  simp only [request, World.issue_eq] at h
  cases h
  exact ⟨rfl, rfl⟩

theorem sourced_request (h : f.request s w₁ = (t, w')) (hw : w.Unrenewed w₁)
    (hreq : w₁.requests = w.requests) : Sourced s w (some f) w' t.next? := by
  have hunrenewed := unrenewed_request h
  obtain ⟨⟨deadline, rfl⟩, -, -, -, notices, hjournal⟩ := requested h
  refine .requests (hw.trans hunrenewed) ?_ rfl
  rw [World.requests, hjournal, World.requests_of_notices, ← hreq]
  rfl

/-- **A turn of an attempt requests its range at its URL, or makes no request.** -/
theorem sourced (h : f.step s w = (t, w')) : Sourced s w (some f) w' t.next? := by
  have hsweep := w.quiet_sweep s
  have hsame := w.unrenewed_sweep s
  cases turned h with
  | refused => exact .ends (.refl w)
  | reuses =>
    exact .goesOn (((hsweep.manage _).count (f := Counters.reused) fun _ => rfl).note _) rfl
  | reserves _ _ _ hr | replaces _ _ _ hr =>
    exact sourced_request hr ⟨hsame.resolver, hsame.renewals⟩ hsweep.requests
  | parks => exact .goesOn ((hsweep.manage _).note _) rfl
  | rouses | dozes | expects => exact .goesOn (.refl w) rfl
  | expires => exact .ends ((World.Quiet.refl w).manage _)
  | denied _ hcol => exact .ends ((World.quiet_collect hcol).manage _)
  | opens _ hcol =>
    exact .goesOn (((World.quiet_collect hcol).count (f := Counters.opened) fun _ => rfl).note _)
      rfl
  | wastes _ hcol =>
    refine .ends (.trans ?_ (World.quiet_giveUp s _ _))
    exact ((World.quiet_collect hcol).count (f := Counters.opened) fun _ => rfl).note _
  | reads _ hr _ ht =>
    rw [ht]
    exact .goesOn (Reading.quiet_step hr) rfl
  | finishes _ hr => exact .ends ((Reading.quiet_step hr).trans (World.quiet_giveBack s _ _))
  | breaks _ hr => exact .ends ((Reading.quiet_step hr).trans (World.quiet_giveUp s _ _))

theorem quiet_drop (s : Setting σ τ) (f : Fetch τ) (w : World σ) : w.Quiet (f.drop s w) := by
  unfold drop
  split
  · exact .refl w
  · exact .refl w
  · exact (World.Quiet.refl w).manage _
  · exact w.quiet_giveUp s _

/-- **A turn of an attempt leaves the resolver alone.** -/
theorem unrenewed_step (h : f.step s w = (t, w')) : w.Unrenewed w' := by
  have hsweep := w.unrenewed_sweep s
  cases turned h with
  | refused | rouses | dozes | expects => exact .refl w
  | reuses | parks => exact hsweep.trans ⟨rfl, rfl⟩
  | reserves _ _ _ hr | replaces _ _ _ hr =>
    have hsent := unrenewed_request hr
    exact hsweep.trans ⟨hsent.resolver, hsent.renewals⟩
  | expires => exact ⟨rfl, rfl⟩
  | denied _ hcol | opens _ hcol | wastes _ hcol =>
    exact (World.unrenewed_collect hcol).trans ⟨rfl, rfl⟩
  | reads _ hr => exact Reading.unrenewed_step hr
  | @finishes _ _ c w₁ _ hr => exact (Reading.unrenewed_step hr).trans (w₁.unrenewed_giveBack s c)
  | breaks _ hr => exact (Reading.unrenewed_step hr).trans ⟨rfl, rfl⟩

theorem unrenewed_drop (s : Setting σ τ) (f : Fetch τ) (w : World σ) :
    w.Unrenewed (f.drop s w) := by
  unfold drop
  split <;> exact ⟨rfl, rfl⟩

end Fetch

end RemoteFile
