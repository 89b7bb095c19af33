import RemoteFile.Proofs.Operation.Stage
import RemoteFile.Proofs.World.Books

/-!
# Where URLs come from

A URL is current because it was given at first, or because the renewer has offered it. Whatever
holds of the first URL and of each offer, holds of the current URL in every world, and of every URL
that the transport is called for: worlds are `World.Confined` to such URLs, and a turn of whatever
task confines them if its attempts do.

Main statements:

* `Renewal.usable_eq_ok_iff` : a URL is used if the renewer answers with it and it can be parsed.
* `Renewal.current_of_answer` : it is current from then on, and nothing else becomes current.
* `Renewal.confined_step` : a renewal makes a URL current only if it was offered.
* `Operation.confined_step` : an operation confines the world as its attempts do.
-/

namespace RemoteFile

/-- The URL that is called for. -/
def Call.url : Call → String
  | .probe url => url
  | .openRange url _ => url

variable {σ τ : Type}

/-- The renewer has this URL for an answer, and it is one that is used. -/
def Setting.Offers (s : Setting σ τ) (url : String) : Prop :=
  ∃ ask n signed, s.renewer = some ask ∧ Renewal.usable (ask n).outcome = .ok signed ∧
    signed.url = url

theorem Setting.Offers.parses {s : Setting σ τ} {url : String} (h : s.Offers url) :
    ∃ u, Url.parse url = .ok u := by
  obtain ⟨ask, n, signed, -, hu, rfl⟩ := h
  exact Renewal.usable_ok hu

/-- The current URL and all that were called for are among those of `P`. -/
structure World.Confined (P : String → Prop) (w : World σ) : Prop where
  /-- The current URL. -/
  current : P w.resolver.current.url
  /-- Those that were called for. -/
  calls : ∀ c ∈ Event.calls w.journal, P c.url

/-- A turn leaves a confined world, and a good task if it goes on. -/
structure Turn.Confines {α β : Type} (P : String → Prop) (good : α → Prop) (t : Turn α β)
    (w : World σ) : Prop where
  /-- The world is confined. -/
  world : w.Confined P
  /-- The task is good. -/
  next : ∀ a, t.next? = some a → good a

variable {P : String → Prop} {s : Setting σ τ} {w w₁ w' : World σ}

namespace World.Confined

theorem of_eq (h : w.Confined P) (hcurrent : w'.resolver.current = w.resolver.current)
    (hcalls : Event.calls w'.journal = Event.calls w.journal) : w'.Confined P := by
  refine ⟨?_, ?_⟩
  · rw [hcurrent]
    exact h.current
  · rw [hcalls]
    exact h.calls

theorem of_call {c : Call} (h : w.Confined P)
    (hcurrent : w'.resolver.current = w.resolver.current)
    (hcalls : Event.calls w'.journal = c :: Event.calls w.journal) (hc : P c.url) :
    w'.Confined P := by
  refine ⟨?_, ?_⟩
  · rw [hcurrent]
    exact h.current
  · rw [hcalls]
    exact List.forall_mem_cons.2 ⟨hc, h.calls⟩

theorem note (h : w.Confined P) (n : Notice) : (w.note n).Confined P := h.of_eq rfl rfl

end World.Confined

namespace Turn

variable {α β : Type} {good : α → Prop} {t : Turn α β}

theorem confines_of_next {a : α} (hw : w.Confined P) (ht : t.next? = some a) (ha : good a) :
    t.Confines P good w := by
  refine ⟨hw, fun a' ha' => ?_⟩
  rw [ht] at ha'
  cases ha'
  exact ha

theorem confines_of_done (hw : w.Confined P) (b : β) : (done b : Turn α β).Confines P good w := by
  refine ⟨hw, fun a ha => ?_⟩
  cases ha

end Turn

/-- **If every turn of a good task confines the world**, and so does all that happens besides, then
every world that can be reached is confined. -/
theorem Crowd.Reachable.confined {κ α β : Type} {m : Crowd.Rules (World σ) κ α β}
    {c : Crowd (World σ) κ α β} {w₀ : World σ} {T : α → Prop}
    (h : Crowd.Reachable m (Crowd.empty w₀) c) (h₀ : w₀.Confined P)
    (hstart : ∀ k, T (m.start k))
    (hturn : ∀ {a t w w'}, World.Confined P w → T a → m.actor.step a w = (t, w') →
      t.Confines P T w')
    (hdrop : ∀ {w} a, World.Confined P w → (m.actor.drop a w).Confined P)
    (hout : ∀ {w w'}, World.Confined P w → m.outside w w' → w'.Confined P) :
    c.world.Confined P := by
  refine (h.separate (W := World.Confined P) (E := fun _ _ => True) (T := fun _ _ a => T a)
    (R := fun _ _ => True)
    ⟨fun _ k => hstart k, fun ha _ => ha, fun hw ha hstep => ?_, ?_, ?_⟩ h₀).1
  · have ht := hturn hw ha hstep
    exact ⟨ht.world, trivial, ht.next, fun _ _ => trivial⟩
  · exact fun {w k a} hw _ => ⟨hdrop a hw, trivial⟩
  · exact fun hw hs => ⟨hout hw hs, trivial⟩

namespace Renewal

variable {r r' : Renewal} {o' : Option Renewal} {d : Deed}
  {t : Turn Renewal (Except Failure Source)}

/-- **A URL is used if the renewer answers with it and it can be parsed**; nothing else is asked of
it. -/
theorem usable_eq_ok_iff {outcome : Except Failure FreshUrl} {signed : FreshUrl} :
    usable outcome = .ok signed ↔ outcome = .ok signed ∧ ∃ u, Url.parse signed.url = .ok u := by
  unfold usable
  split
  · simp
  · simp
  · rename_i answer
    cases hparse : Url.parse answer.url with
    | error fault =>
      simp only [reduceCtorEq, Except.ok.injEq, false_iff, not_and, not_exists]
      rintro rfl u
      simp [hparse]
    | ok u =>
      simp only [Except.ok.injEq, iff_self_and]
      rintro rfl
      exact ⟨u, hparse⟩

/-- **The URL stays, or it is one that the renewer has answered with.** -/
theorem Deals.current (h : Deals s w (some r) d w' o') :
    w'.resolver.current = w.resolver.current ∨
      ∃ ticket due outcome signed, r.phase = .asking ticket due outcome ∧
        usable outcome = .ok signed ∧ w'.resolver.current =
          ⟨signed.url, w.resolver.current.generation + 1, signed.expiresAt⟩ := by
  cases h with
  | enters _ hw | waits hw | asks _ _ _ _ _ hw | leaves _ _ _ hw | fails _ _ hw | vanishes _ hw
  | quits _ hw | abandons _ hw =>
    rw [hw.resolver]
    exact .inl rfl
  | renews hr hu hw =>
    rw [hw.resolver]
    exact .inr ⟨_, _, _, _, hr, hu, rfl⟩

theorem Deals.outcome {ticket : Nat} {due : Option Nat} {outcome : Except Failure FreshUrl}
    (h : Deals s w (some r) d w' (some r')) (hr' : r'.phase = .asking ticket due outcome) :
    r.phase = .asking ticket due outcome ∨
      ∃ ask n, s.renewer = some ask ∧ outcome = (ask n).outcome := by
  cases h with
  | enters => cases hr'
  | waits => exact .inl hr'
  | asks _ _ _ _ hask =>
    cases hr'
    exact .inr ⟨_, _, hask, rfl⟩

/-- **What comes of an answer.**  If it is no URL that can be parsed then the renewal fails, and the
URL stays current with its generation. Else it is current from then on, whatever its scheme. -/
theorem current_of_answer {ticket : Nat} {due : Option Nat} {outcome : Except Failure FreshUrl}
    {b : Except Failure Source} (hr : r.phase = .asking ticket due outcome)
    (h : r.step s w = (.done b, w')) :
    ((∀ signed u, outcome = .ok signed → Url.parse signed.url ≠ .ok u) →
      (∃ reason, b = .error (.renewal reason)) ∧
        w'.resolver.current = w.resolver.current) ∧
    ∀ signed u, outcome = .ok signed → Url.parse signed.url = .ok u →
      b = .ok w'.resolver.current ∧ w'.resolver.current =
        ⟨signed.url, w.resolver.current.generation + 1, signed.expiresAt⟩ := by
  have hheard : ∃ c, Deals s w (some r) (.answered c outcome b) w' none := by
    rcases ends_of_step h with ⟨seen, ticket', hqueued, -⟩ | ⟨ticket', due', outcome', hr', hd⟩
    · cases hr.symm.trans hqueued
    · cases hr.symm.trans hr'
      exact ⟨_, hd⟩
  obtain ⟨c, hd⟩ := hheard
  rcases hd.hears with ⟨reason, hu, hb, hsame, -⟩ | ⟨signed, early, hu, hb, hsame, -⟩
  · refine ⟨fun _ => ⟨⟨reason, hb⟩, hsame.current⟩, fun signed u hsigned hparse => ?_⟩
    rw [usable_eq_ok_iff.2 ⟨hsigned, u, hparse⟩] at hu
    cases hu
  · obtain ⟨rfl, u, hparse⟩ := usable_eq_ok_iff.1 hu
    refine ⟨fun hnone => absurd hparse (hnone signed u rfl), fun signed' u' hsigned _ => ?_⟩
    cases hsigned
    exact ⟨hb.trans (congrArg Except.ok hsame.current.symm), hsame.current⟩

/-- The answer that a renewal waits for is among the URLs of `P`, if it is used. -/
def Confined (P : String → Prop) (r : Renewal) : Prop :=
  ∀ ticket due outcome signed, r.phase = .asking ticket due outcome →
    usable outcome = .ok signed → P signed.url

theorem confined_start (P : String → Prop) (stale : Source) (early : Bool) :
    (start stale early).Confined P := by
  intro ticket due outcome signed hphase
  cases hphase

/-- **A renewal makes a URL current only if it was offered.** -/
theorem confined_step (hP : ∀ url, s.Offers url → P url) (hw : w.Confined P) (hr : r.Confined P)
    (h : r.step s w = (t, w')) : t.Confines P (·.Confined P) w' := by
  have hdeals := deals_step h
  have hunbooked : w.Unbooked True w' := (arranges_step h).unbooked
  have hcalls := (World.calls_of_tells hunbooked.calls).1
  refine ⟨?_, fun r' hr' => ?_⟩
  · rcases hdeals.current with hsame | ⟨ticket, due, outcome, signed, hphase, hu, hcurrent⟩
    · exact hw.of_eq hsame hcalls
    · refine ⟨?_, ?_⟩
      · rw [hcurrent]
        exact hr _ _ _ _ hphase hu
      · rw [hcalls]
        exact hw.calls
  · rw [hr'] at hdeals
    intro ticket due outcome signed hphase hu
    rcases hdeals.outcome hphase with hsame | ⟨ask, n, hask, rfl⟩
    · exact hr _ _ _ _ hsame hu
    · exact hP _ ⟨ask, n, signed, hask, hu, rfl⟩

theorem confined_drop (hw : w.Confined P) (r : Renewal) : (r.drop w).Confined P := by
  unfold drop
  split
  · exact hw
  · exact hw.of_eq rfl rfl
  · exact hw.of_eq rfl rfl

end Renewal

namespace Operation

variable {α β : Type} {work : Attempts (World σ) α β} {o : Operation α} {good : α → Prop}
  {t : Turn (Operation α) (Except Failure β)}

/-- The answer that an operation waits for is confined, and its attempt is good. -/
def Confined (P : String → Prop) (good : α → Prop) (o : Operation α) : Prop :=
  match o.phase with
  | .choosing | .resting _ => True
  | .refreshing r | .renewing r => r.Confined P
  | .attempting _ a => good a

/-- **An operation confines the world as its attempts do**, if an attempt at a URL of `P` is a good
one. -/
theorem confined_step (hP : ∀ url, s.Offers url → P url)
    (hstart : ∀ number source, P source.url → good (work.start number source))
    (hwork : ∀ {a ta w₁}, good a → work.step a w = (ta, w₁) → ta.Confines P good w₁)
    (hw : w.Confined P) (ho : o.Confined P good) (h : o.step s work w = (t, w')) :
    t.Confines P (·.Confined P good) w' := by
  obtain ⟨b, phase⟩ := o
  cases stage h with
  | @begins w₁ hw₁ =>
    have hbegun : w₁.Confined P ∧ w₁.resolver = w.resolver := by
      rcases hw₁ with rfl | rfl
      · exact ⟨hw, rfl⟩
      · exact ⟨hw.note _, rfl⟩
    exact Turn.confines_of_next (hbegun.1.of_eq rfl rfl) rfl (hstart _ _ hw.current)
  | nears => exact Turn.confines_of_next (hw.note _) rfl (Renewal.confined_start P _ _)
  | refreshes hstep hr ht | renews hstep hr ht =>
    have hturn := Renewal.confined_step hP hw ho hstep
    exact Turn.confines_of_next hturn.world ht (hturn.next _ hr)
  | refreshed hstep =>
    have hturn := Renewal.confined_step hP hw ho hstep
    -- the renewal ends with the URL that is current then
    have hsource := hturn.world.current
    rw [← Renewal.current_of_done hstep] at hsource
    exact Turn.confines_of_next (hturn.world.of_eq rfl rfl) rfl (hstart _ _ hsource)
  | stale hstep | unrenewed hstep =>
    exact Turn.confines_of_done (Renewal.confined_step hP hw ho hstep).world _
  | works hstep ha ht =>
    have hturn := hwork ho hstep
    exact Turn.confines_of_next hturn.world ht (hturn.next _ ha)
  | succeeds hstep | breaks hstep => exact Turn.confines_of_done (hwork ho hstep).world _
  | exhausts hstep => exact Turn.confines_of_done ((hwork ho hstep).world.note _) _
  | rejects hstep =>
    exact Turn.confines_of_next ((hwork ho hstep).world.of_eq rfl rfl) rfl
      (Renewal.confined_start P _ _)
  | backsOff hstep _ _ hphase =>
    refine Turn.confines_of_next ((hwork ho hstep).world.of_eq rfl rfl) rfl ?_
    rcases hphase with rfl | ⟨due, rfl⟩ <;> trivial
  | renewed hstep =>
    exact Turn.confines_of_next (Renewal.confined_step hP hw ho hstep).world rfl trivial
  | rests | wakes => exact Turn.confines_of_next hw rfl trivial

theorem confined_drop (hwork : ∀ a, (work.drop a w).Confined P) (hw : w.Confined P)
    (o : Operation α) : (o.drop work w).Confined P := by
  unfold drop
  split
  · exact hw
  · exact hw
  · exact Renewal.confined_drop hw _
  · exact Renewal.confined_drop hw _
  · exact hwork _

end Operation

end RemoteFile
