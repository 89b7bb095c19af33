import RemoteFile.Proofs.Renewal.Turn
import RemoteFile.Proofs.World

/-!
# Requests and renewals

The requests for ranges can be read off the journal, and how often the URL was renewed off the
counters. Most of what is done in a world adds no request, and changes the URL by a renewal that is
counted only: what it leaves is `World.Quiet`. Renewing itself is.

Main statements:

* `World.Renews.current_eq_iff` : a URL that was current is so as long as no renewal is counted.
* `Renewal.quiet_step` : a renewal makes no request for a range.
* `Renewal.current_of_done` : the URL that a renewal ends with is the current one.
-/

namespace RemoteFile

variable {σ τ : Type}

/-- The URL and the range of a request for a range. -/
def Event.openRange? : Event → Option (String × ByteRange)
  | .call (.openRange url range) => some (url, range)
  | .call (.probe _) | .notice _ | .renewerCall | .sleep _ | .attempt _ _ => none

theorem Event.filterMap_notices {γ : Type} {f : Event → Option γ} (hf : ∀ n, f (.notice n) = none)
    (notices : List Notice) (l : List Event) :
    (notices.map notice ++ l).filterMap f = l.filterMap f := by
  induction notices with
  | nil => rfl
  | cons n notices ih => exact (List.filterMap_cons_none (hf n)).trans ih

theorem Event.calls_notices (notices : List Notice) (l : List Event) :
    calls (notices.map notice ++ l) = calls l := filterMap_notices (fun _ => rfl) notices l

namespace World

/-- The requests for ranges so far, the latest first. -/
def requests (w : World σ) : List (String × ByteRange) := w.journal.filterMap Event.openRange?

/-- Every renewal that was counted meanwhile has begun a generation, and nothing else has changed
the URL. -/
structure Renews (w w' : World σ) : Prop where
  /-- The renewals are counted. -/
  renewals_le : w.counters.renewals ≤ w'.counters.renewals
  /-- Each of them has begun a generation. -/
  generation : w'.resolver.current.generation + w.counters.renewals =
    w.resolver.current.generation + w'.counters.renewals
  /-- If there was none, then the URL is the same. -/
  current : w'.counters.renewals = w.counters.renewals →
    w'.resolver.current = w.resolver.current

namespace Renews

variable {w w₁ w' : World σ}

theorem of_unrenewed (h : w.Unrenewed w') : w.Renews w' := by
  refine ⟨Nat.le_of_eq h.renewals.symm, ?_, fun _ => ?_⟩
  · rw [h.resolver, h.renewals]
  · rw [h.resolver]

theorem refl (w : World σ) : w.Renews w := of_unrenewed ⟨rfl, rfl⟩

theorem trans (h : w.Renews w₁) (h' : w₁.Renews w') : w.Renews w' := by
  have hle := h.renewals_le
  have hle' := h'.renewals_le
  have hgen := h.generation
  have hgen' := h'.generation
  refine ⟨Nat.le_trans hle hle', by omega, fun heq => ?_⟩
  rw [h'.current (by omega), h.current (by omega)]

/-- A URL that was current is so as long as no renewal is counted. -/
theorem current_eq_iff (h : w.Renews w') :
    w'.resolver.current = w.resolver.current ↔ w'.counters.renewals = w.counters.renewals := by
  refine ⟨fun heq => ?_, h.current⟩
  have hgen := h.generation
  rw [heq] at hgen
  omega

end Renews

/-- No range was requested meanwhile, and the URL was changed by renewals only. -/
structure Quiet (w w' : World σ) : Prop where
  /-- The URL. -/
  renews : w.Renews w'
  /-- The requests. -/
  requests : w'.requests = w.requests

namespace Quiet

variable {w w₁ w' : World σ}

theorem refl (w : World σ) : w.Quiet w := ⟨.refl w, rfl⟩

theorem trans (h : w.Quiet w₁) (h' : w₁.Quiet w') : w.Quiet w' :=
  ⟨h.renews.trans h'.renews, h'.requests.trans h.requests⟩

theorem of_eq (hresolver : w'.resolver = w.resolver)
    (hrenewals : w'.counters.renewals = w.counters.renewals) (hreq : w'.requests = w.requests) :
    w.Quiet w' :=
  ⟨.of_unrenewed ⟨hresolver, hrenewals⟩, hreq⟩

theorem note (h : w.Quiet w₁) (n : Notice) : w.Quiet (w₁.note n) :=
  h.trans (.of_eq rfl rfl rfl)

theorem manage (h : w.Quiet w₁) (f : Pool → Pool) : w.Quiet (w₁.manage f) :=
  h.trans (.of_eq rfl rfl rfl)

theorem count (h : w.Quiet w₁) {f : Counters → Counters}
    (hf : ∀ c : Counters, (f c).renewals = c.renewals) : w.Quiet (w₁.count f) :=
  h.trans (.of_eq rfl (hf _) rfl)

end Quiet

theorem requests_of_notices (notices : List Notice) (l : List Event) :
    (notices.map Event.notice ++ l).filterMap Event.openRange? =
      l.filterMap Event.openRange? := Event.filterMap_notices (fun _ => rfl) notices l

theorem unrenewed_sweep (s : Setting σ τ) (w : World σ) : w.Unrenewed (w.sweep s) := by
  rw [sweep_eq]
  exact ⟨rfl, rfl⟩

theorem quiet_sweep (s : Setting σ τ) (w : World σ) : w.Quiet (w.sweep s) := by
  obtain ⟨notices, hjournal⟩ := w.journal_sweep s
  refine ⟨.of_unrenewed (w.unrenewed_sweep s), ?_⟩
  rw [requests, hjournal, requests_of_notices]
  rfl

theorem quiet_closePool (s : Setting σ τ) (w : World σ) : w.Quiet (w.closePool s) := by
  rw [closePool_eq]
  exact .of_eq rfl rfl rfl

theorem quiet_collect {s : Setting σ τ} {ticket : τ} {r : Except Failure Body} {w w₁ : World σ}
    (h : w.collect s ticket = (r, w₁)) : w.Quiet w₁ := by
  rw [collect_eq] at h
  cases h
  refine .of_eq rfl rfl ?_
  rw [requests, ← List.map_reverse, requests_of_notices]
  rfl

theorem unrenewed_collect {s : Setting σ τ} {ticket : τ} {r : Except Failure Body}
    {w w₁ : World σ} (h : w.collect s ticket = (r, w₁)) : w.Unrenewed w₁ := by
  rw [collect_eq] at h
  cases h
  exact ⟨rfl, rfl⟩

theorem unrenewed_giveBack (s : Setting σ τ) (c : Connection) (w : World σ) :
    w.Unrenewed (w.giveBack s c) := by
  rcases w.giveBack_eq s c with ⟨h, -⟩ | ⟨h, -⟩ <;> rw [h] <;> exact ⟨rfl, rfl⟩

theorem quiet_giveUp (s : Setting σ τ) (c : Connection) (w : World σ) : w.Quiet (w.giveUp s c) :=
  .of_eq rfl rfl rfl

theorem quiet_giveBack (s : Setting σ τ) (c : Connection) (w : World σ) :
    w.Quiet (w.giveBack s c) := by
  rcases w.giveBack_eq s c with ⟨h, -⟩ | ⟨h, -⟩ <;> rw [h]
  · exact w.quiet_giveUp s c
  · exact (Quiet.refl w).manage _

end World

namespace Renewal

variable {s : Setting σ τ} {r : Renewal} {w w' : World σ} {t : Turn Renewal (Except Failure Source)}

/-- Whatever becomes of a renewal, the URL changes if and only if a renewal is counted. -/
theorem renews_of_deals {o o' : Option Renewal} {d : Deed} (h : Deals s w o d w' o') :
    w.Renews w' := by
  cases hd : d.isAnswer with
  | false =>
    obtain ⟨hsame, hrenewals⟩ := h.keeps hd
    refine ⟨Nat.le_of_eq hrenewals.symm, ?_, fun _ => hsame.current⟩
    rw [hsame.current, hrenewals]
  | true =>
    cases d with
    | answered c outcome b =>
      rcases h.hears with ⟨reason, -, -, hsame, hrenewals⟩ | ⟨signed, early, -, -, hsame, hrenewals⟩
      · refine ⟨Nat.le_of_eq hrenewals.symm, ?_, fun _ => hsame.current⟩
        rw [hsame.current, hrenewals]
        rfl
      · refine ⟨?_, ?_, fun heq => ?_⟩
        · rw [hrenewals]
          exact Nat.le_succ _
        · -- the fresh URL has the generation after the one that is replaced
          rw [hsame.current, hrenewals]
          exact Nat.succ_add_eq_add_succ _ _
        · omega
    | nothing | enters | asks | leaves | quits | abandons => cases hd

theorem requests_takeTurn {seen ticket : Nat} (h : r.takeTurn s seen ticket w = (t, w')) :
    w'.requests = w.requests := by
  simp only [takeTurn] at h
  split at h
  · cases h
    rfl
  · split at h
    · cases h
      rfl
    · split at h <;> cases h <;> rfl

theorem requests_complete {ticket : Nat} {outcome : Except Failure FreshUrl}
    (h : r.complete s ticket outcome w = (t, w')) : w'.requests = w.requests := by
  simp only [complete] at h
  split at h <;> cases h <;> rfl

/-- A renewal makes no request for a range. -/
theorem quiet_step (h : r.step s w = (t, w')) : w.Quiet w' := by
  refine ⟨renews_of_deals (deals_step h), ?_⟩
  unfold step at h
  split at h
  · cases h
    rfl
  · split at h
    · exact requests_takeTurn h
    · cases h
      rfl
  · split at h
    · exact requests_complete h
    · cases h
      rfl

theorem quiet_drop (s : Setting σ τ) (r : Renewal) (w : World σ) : w.Quiet (r.drop w) := by
  refine ⟨renews_of_deals (deals_drop s r w), ?_⟩
  unfold drop
  split <;> rfl

theorem current_of_takeTurn {seen ticket : Nat} {source : Source}
    (h : r.takeTurn s seen ticket w = (.done (.ok source), w')) : source = w'.resolver.current := by
  simp only [takeTurn] at h
  split at h
  · cases h
    rfl
  · split at h
    · cases h
    · split at h <;> cases h

/-- The URL that a renewal ends with is the current one. -/
theorem current_of_done {source : Source} (h : r.step s w = (.done (.ok source), w')) :
    source = w'.resolver.current := by
  unfold step at h
  split at h
  · cases h
  · split at h
    · exact current_of_takeTurn h
    · cases h
  · split at h
    · simp only [complete] at h
      split at h <;> cases h
      rfl
    · cases h

end Renewal

end RemoteFile
