import RemoteFile.Proofs.Crowd.Trace
import RemoteFile.Renewal

/-!
# What a turn of a renewal does

Whoever wants a URL renewed joins the line with a ticket, and then leaves it again: with the URL
that somebody else has got meanwhile, with the reason why somebody else has failed to get one, or
with what the renewer answers. `Renewal.Deals` lists what one step comes to for a task that renews
at most one URL at a time, as a `Renewal.Deed` that can be told afterwards, with what it does to
the resolver.

Main statements:

* `Renewal.deals_step` : a turn of a renewal is one of these.
* `Renewal.deals_drop` : so is dropping it.
* `Renewal.Deals.keeps` : the resolver changes by an answer of the renewer only.
-/

namespace RemoteFile

variable {σ τ : Type}

/-- The resolver is the same in both worlds, and as many URLs were renewed. -/
structure World.Unrenewed (w w' : World σ) : Prop where
  /-- The resolver. -/
  resolver : w'.resolver = w.resolver
  /-- How many URLs were renewed. -/
  renewals : w'.counters.renewals = w.counters.renewals

theorem World.Unrenewed.refl (w : World σ) : w.Unrenewed w := ⟨rfl, rfl⟩

theorem World.Unrenewed.trans {w w₁ w' : World σ} (h : w.Unrenewed w₁) (h' : w₁.Unrenewed w') :
    w.Unrenewed w' :=
  ⟨h'.resolver.trans h.resolver, h'.renewals.trans h.renewals⟩

namespace Resolver

/-- All but the line is the same in both resolvers: the URL, what was completed, and how. -/
structure Same (x y : Resolver) : Prop where
  /-- The URL. -/
  current : y.current = x.current
  /-- How many renewals were completed. -/
  completed : y.completed = x.completed
  /-- Why the latest of these failed. -/
  failure : y.failure = x.failure
  /-- The generation that was renewed ahead of expiry. -/
  earlyGeneration : y.earlyGeneration = x.earlyGeneration

theorem Same.refl (x : Resolver) : Same x x := ⟨rfl, rfl, rfl, rfl⟩

theorem Same.trans {x y z : Resolver} (h : Same x y) (h' : Same y z) : Same x z :=
  ⟨h'.current.trans h.current, h'.completed.trans h.completed, h'.failure.trans h.failure,
    h'.earlyGeneration.trans h.earlyGeneration⟩

end Resolver

namespace Renewal

/-- One who stands in line: what is to be renewed, and the ticket. -/
structure Caller where
  /-- The URL to replace. -/
  stale : Source
  /-- The ticket, which nobody else ever gets. -/
  ticket : Nat
deriving DecidableEq, Repr

/-- The place in the line, if the renewal has one. -/
def caller? (r : Renewal) : Option Caller :=
  match r.phase with
  | .arriving => none
  | .queued _ ticket | .asking ticket _ _ => some ⟨r.stale, ticket⟩

/-- The place in the line, if the renewer was called and has not answered yet. -/
def asker? (r : Renewal) : Option Caller :=
  match r.phase with
  | .arriving | .queued _ _ => none
  | .asking ticket _ _ => some ⟨r.stale, ticket⟩

/-- What becomes of a renewal in one step. -/
inductive Deed where
  /-- Nothing that concerns the others. -/
  | nothing
  /-- It joins the line. -/
  | enters (c : Caller)
  /-- It calls the renewer. -/
  | asks (c : Caller)
  /-- The renewer has answered, and it ends with this. -/
  | answered (c : Caller) (outcome : Except Failure FreshUrl) (result : Except Failure Source)
  /-- It ends with this and has not called the renewer. -/
  | leaves (c : Caller) (result : Except Failure Source)
  /-- It is dropped while it stands in line. -/
  | quits (c : Caller)
  /-- It is dropped before the renewer has answered. -/
  | abandons (c : Caller)

/-- What one who is first in line learns without calling the renewer. -/
inductive Learns (s : Setting σ τ) (x : Resolver) (stale : Source) (seen : Nat) :
    Except Failure Source → Prop
  /-- There is a later URL. -/
  | newer (h : stale.generation < x.current.generation) : Learns s x stale seen (.ok x.current)
  /-- A renewal has failed meanwhile. -/
  | shared {reason : String} (h : x.current.generation ≤ stale.generation)
      (hshared : sharedFailure seen x = some reason) :
      Learns s x stale seen (.error (.renewal reason))
  /-- There is no renewer. -/
  | refused (h : x.current.generation ≤ stale.generation) (hnone : s.renewer = none) :
      Learns s x stale seen (.error (unrenewable stale))

theorem Learns.of_same {s : Setting σ τ} {x y : Resolver} {stale : Source} {seen : Nat}
    {b : Except Failure Source} (h : Learns s y stale seen b) (hsame : Resolver.Same x y) :
    Learns s x stale seen b := by
  have hcurrent := hsame.current
  cases h with
  | newer hlt => exact hcurrent ▸ .newer (hcurrent ▸ hlt)
  | shared hle hshared =>
    refine .shared (hcurrent ▸ hle) ?_
    rw [← hshared, sharedFailure, sharedFailure, hsame.completed, hsame.failure]
  | refused hle hnone => exact .refused (hcurrent ▸ hle) hnone

theorem Learns.sharedFailure_eq {s : Setting σ τ} {x : Resolver} {stale : Source} {seen : Nat}
    {reason : String} (h : Learns s x stale seen (.error (.renewal reason)))
    (hs : s.renewer.isSome) : sharedFailure seen x = some reason := by
  generalize hb : Except.error (Failure.renewal reason) = b at h
  cases h with
  | newer => cases hb
  | shared _ hshared =>
    cases hb
    exact hshared
  | refused _ hnone =>
    rw [hnone] at hs
    cases hs

/-- What one step does to the resolver and to the renewal that a task makes. -/
inductive Deals (s : Setting σ τ) (w : World σ) :
    Option Renewal → Deed → World σ → Option Renewal → Prop
  /-- There is no renewal. -/
  | aside {w' : World σ} (hw : w.Unrenewed w') : Deals s w none .nothing w' none
  /-- A renewal begins, of a URL that was current once. -/
  | begins {w' : World σ} {stale : Source} {early : Bool} (hw : w.Unrenewed w')
      (hstale : stale.generation ≤ w.resolver.current.generation) :
      Deals s w none .nothing w' (some (start stale early))
  /-- It joins the line. -/
  | enters {w' : World σ} {r : Renewal} (hr : r.phase = .arriving)
      (hw : (w.resolve Resolver.enter).Unrenewed w') :
      Deals s w (some r) (.enters ⟨r.stale, w.resolver.nextTicket⟩) w'
        (some { r with phase := .queued w.resolver.completed w.resolver.nextTicket })
  /-- It waits. -/
  | waits {w' : World σ} {r : Renewal} (hw : w.Unrenewed w') :
      Deals s w (some r) .nothing w' (some r)
  /-- It has its turn and calls the renewer. -/
  | asks {w' : World σ} {r : Renewal} {seen ticket : Nat} {due : Option Nat}
      {ask : Nat → RenewerReply} (hr : r.phase = .queued seen ticket)
      (hfirst : w.resolver.line.head? = some ticket)
      (hstale : w.resolver.current.generation ≤ r.stale.generation)
      (hshared : sharedFailure seen w.resolver = none) (hask : s.renewer = some ask)
      (hw : (w.resolve Resolver.called).Unrenewed w') :
      Deals s w (some r) (.asks ⟨r.stale, ticket⟩) w'
        (some { r with phase := .asking ticket due (ask w.resolver.calls).outcome })
  /-- It has its turn and learns what has come of another renewal. -/
  | leaves {w' : World σ} {r : Renewal} {seen ticket : Nat} {b : Except Failure Source}
      (hr : r.phase = .queued seen ticket) (hfirst : w.resolver.line.head? = some ticket)
      (hb : Learns s w.resolver r.stale seen b)
      (hw : (w.resolve (·.leave ticket)).Unrenewed w') :
      Deals s w (some r) (.leaves ⟨r.stale, ticket⟩ b) w' none
  /-- The renewer has no URL for it. -/
  | fails {w' : World σ} {r : Renewal} {ticket : Nat} {due : Option Nat}
      {outcome : Except Failure FreshUrl} {reason : String}
      (hr : r.phase = .asking ticket due outcome) (hu : usable outcome = .error reason)
      (hw : (w.resolve fun x => (x.failed reason).leave ticket).Unrenewed w') :
      Deals s w (some r) (.answered ⟨r.stale, ticket⟩ outcome (.error (.renewal reason))) w' none
  /-- The renewer has a URL for it. -/
  | renews {w' : World σ} {r : Renewal} {ticket : Nat} {due : Option Nat}
      {outcome : Except Failure FreshUrl} {signed : FreshUrl}
      (hr : r.phase = .asking ticket due outcome) (hu : usable outcome = .ok signed)
      (hw : ((w.count Counters.renewed).resolve
        fun x => (x.renewed signed r.early).leave ticket).Unrenewed w') :
      Deals s w (some r) (.answered ⟨r.stale, ticket⟩ outcome
        (.ok ⟨signed.url, w.resolver.current.generation + 1, signed.expiresAt⟩)) w' none
  /-- It is dropped before it joins the line. -/
  | vanishes {w' : World σ} {r : Renewal} (hr : r.phase = .arriving) (hw : w.Unrenewed w') :
      Deals s w (some r) .nothing w' none
  /-- It is dropped while it stands in line. -/
  | quits {w' : World σ} {r : Renewal} {seen ticket : Nat} (hr : r.phase = .queued seen ticket)
      (hw : (w.resolve (·.leave ticket)).Unrenewed w') :
      Deals s w (some r) (.quits ⟨r.stale, ticket⟩) w' none
  /-- It is dropped before the renewer has answered. -/
  | abandons {w' : World σ} {r : Renewal} {ticket : Nat} {due : Option Nat}
      {outcome : Except Failure FreshUrl} (hr : r.phase = .asking ticket due outcome)
      (hw : (w.resolve (·.leave ticket)).Unrenewed w') :
      Deals s w (some r) (.abandons ⟨r.stale, ticket⟩) w' none

/-- What a turn is told as after which the renewal stands so, or has ended with such a result. -/
def deed (r : Renewal) (next : Option Renewal) (result : Option (Except Failure Source)) : Deed :=
  match r.phase, next, result with
  | .arriving, some ⟨_, _, .queued _ ticket⟩, _ => .enters ⟨r.stale, ticket⟩
  | .queued _ ticket, some ⟨_, _, .asking _ _ _⟩, _ => .asks ⟨r.stale, ticket⟩
  | .queued _ ticket, none, some b => .leaves ⟨r.stale, ticket⟩ b
  | .asking ticket _ outcome, none, some b => .answered ⟨r.stale, ticket⟩ outcome b
  | _, _, _ => .nothing

theorem deed_of_asking {r : Renewal} {ticket : Nat} {due : Option Nat}
    {outcome : Except Failure FreshUrl} (h : r.phase = .asking ticket due outcome)
    (b : Except Failure Source) :
    r.deed none (some b) = .answered ⟨r.stale, ticket⟩ outcome b := by
  simp only [deed, h]

/-- What dropping a renewal is told as. -/
def dropDeed (r : Renewal) : Deed :=
  match r.phase with
  | .arriving => .nothing
  | .queued _ ticket => .quits ⟨r.stale, ticket⟩
  | .asking ticket _ _ => .abandons ⟨r.stale, ticket⟩

variable {s : Setting σ τ} {r : Renewal} {w w' : World σ} {o o' : Option Renewal} {d : Deed}
  {t : Turn Renewal (Except Failure Source)}

theorem deals_takeTurn {stale : Source} {early : Bool} {seen ticket : Nat}
    (hfirst : w.resolver.line.head? = some ticket)
    (h : takeTurn s ⟨stale, early, .queued seen ticket⟩ seen ticket w = (t, w')) :
    Deals s w (some ⟨stale, early, .queued seen ticket⟩)
      (deed ⟨stale, early, .queued seen ticket⟩ t.next? t.result?) w' t.next? := by
  simp only [takeTurn] at h
  split at h
  · rename_i hlt
    cases h
    exact .leaves rfl hfirst (.newer hlt) ⟨rfl, rfl⟩
  · rename_i hle
    split at h
    · rename_i reason hshared
      cases h
      exact .leaves rfl hfirst (.shared (Nat.le_of_not_lt hle) hshared) ⟨rfl, rfl⟩
    · rename_i hshared
      split at h
      · rename_i hnone
        cases h
        exact .leaves rfl hfirst (.refused (Nat.le_of_not_lt hle) hnone) ⟨rfl, rfl⟩
      · rename_i ask hask
        cases h
        exact .asks rfl hfirst (Nat.le_of_not_lt hle) hshared hask ⟨rfl, rfl⟩

theorem deals_complete {stale : Source} {early : Bool} {ticket : Nat} {due : Option Nat}
    {outcome : Except Failure FreshUrl}
    (h : complete s ⟨stale, early, .asking ticket due outcome⟩ ticket outcome w = (t, w')) :
    Deals s w (some ⟨stale, early, .asking ticket due outcome⟩)
      (deed ⟨stale, early, .asking ticket due outcome⟩ t.next? t.result?) w' t.next? := by
  simp only [complete] at h
  split at h
  · rename_i reason hu
    cases h
    exact .fails rfl hu ⟨rfl, rfl⟩
  · rename_i signed hu
    cases h
    exact .renews rfl hu ⟨rfl, rfl⟩

/-- **A turn of a renewal joins the line, waits, calls the renewer, or ends.** -/
theorem deals_step (h : r.step s w = (t, w')) :
    Deals s w (some r) (r.deed t.next? t.result?) w' t.next? := by
  obtain ⟨stale, early, phase⟩ := r
  cases phase with
  | arriving =>
    cases h
    exact .enters rfl ⟨rfl, rfl⟩
  | queued seen ticket =>
    simp only [step] at h
    split at h
    · rename_i hfirst
      exact deals_takeTurn (beq_iff_eq.1 hfirst) h
    · cases h
      exact .waits ⟨rfl, rfl⟩
  | asking ticket due outcome =>
    simp only [step] at h
    split at h
    · exact deals_complete h
    · cases h
      exact .waits ⟨rfl, rfl⟩

/-- A renewal ends with what it learns from others, or with what the renewer has answered. -/
theorem ends_of_step {b : Except Failure Source} (h : r.step s w = (.done b, w')) :
    (∃ seen ticket, r.phase = .queued seen ticket ∧ Learns s w.resolver r.stale seen b) ∨
      ∃ ticket due outcome, r.phase = .asking ticket due outcome ∧
        Deals s w (some r) (.answered ⟨r.stale, ticket⟩ outcome b) w' none := by
  have hdeals := deals_step h
  obtain ⟨stale, early, phase⟩ := r
  cases phase with
  | arriving => cases h
  | queued seen ticket =>
    cases hdeals with
    | leaves hr hfirst hb hw =>
      cases hr
      exact .inl ⟨seen, ticket, rfl, hb⟩
  | asking ticket due outcome => exact .inr ⟨ticket, due, outcome, rfl, hdeals⟩

/-- A renewal that is dropped leaves the line. -/
theorem deals_drop (s : Setting σ τ) (r : Renewal) (w : World σ) :
    Deals s w (some r) r.dropDeed (r.drop w) none := by
  obtain ⟨stale, early, phase⟩ := r
  cases phase with
  | arriving => exact .vanishes rfl ⟨rfl, rfl⟩
  | queued seen ticket => exact .quits rfl ⟨rfl, rfl⟩
  | asking ticket due outcome => exact .abandons rfl ⟨rfl, rfl⟩

/-! ### What the resolver hears -/

/-- The renewer has answered. -/
def Deed.isAnswer : Deed → Bool
  | .answered _ _ _ => true
  | .nothing | .enters _ | .asks _ | .leaves _ _ | .quits _ | .abandons _ => false

/-- **The resolver changes by an answer of the renewer only.** -/
theorem Deals.keeps (h : Deals s w o d w' o') (hd : d.isAnswer = false) :
    Resolver.Same w.resolver w'.resolver ∧ w'.counters.renewals = w.counters.renewals := by
  cases h with
  | aside hw | begins hw | waits hw | vanishes _ hw =>
    rw [hw.resolver]
    exact ⟨.refl _, hw.renewals⟩
  | enters _ hw | asks _ _ _ _ _ hw | leaves _ _ _ hw | quits _ hw | abandons _ hw =>
    rw [hw.resolver]
    exact ⟨⟨rfl, rfl, rfl, rfl⟩, hw.renewals⟩
  | fails | renews => cases hd

theorem Deals.hears {c : Caller} {outcome : Except Failure FreshUrl} {b : Except Failure Source}
    (h : Deals s w o (.answered c outcome b) w' o') :
    (∃ reason, usable outcome = .error reason ∧ b = .error (.renewal reason) ∧
      Resolver.Same (w.resolver.failed reason) w'.resolver ∧
      w'.counters.renewals = w.counters.renewals) ∨
    ∃ signed early, usable outcome = .ok signed ∧
      b = .ok ⟨signed.url, w.resolver.current.generation + 1, signed.expiresAt⟩ ∧
      Resolver.Same (w.resolver.renewed signed early) w'.resolver ∧
      w'.counters.renewals = w.counters.renewals + 1 := by
  cases h with
  | fails hr hu hw =>
    refine .inl ⟨_, hu, rfl, ?_, hw.renewals⟩
    rw [hw.resolver]
    exact ⟨rfl, rfl, rfl, rfl⟩
  | @renews _ r _ _ _ _ hr hu hw =>
    refine .inr ⟨_, r.early, hu, rfl, ?_, hw.renewals⟩
    rw [hw.resolver]
    exact ⟨rfl, rfl, rfl, rfl⟩

theorem Deals.generation_le (h : Deals s w o d w' o') :
    w.resolver.current.generation ≤ w'.resolver.current.generation := by
  cases hd : d.isAnswer with
  | false =>
    have hcurrent := (h.keeps hd).1.current
    exact Nat.le_of_eq (congrArg Source.generation hcurrent.symm)
  | true =>
    cases d with
    | answered c outcome b =>
      rcases h.hears with ⟨reason, -, -, hsame, -⟩ | ⟨signed, early, -, -, hsame, -⟩ <;>
        rw [hsame.current]
      · exact Nat.le_refl _
      · exact Nat.le_succ _
    | nothing | enters | asks | leaves | quits | abandons => cases hd

end Renewal

end RemoteFile
