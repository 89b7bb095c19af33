import RemoteFile.Proofs.Consultation.Answers

/-!
# Bursts of renewals

Many callers want the same URL renewed at the same time. Those that join the line before the
renewer has answered one of them are a *burst*. They call the renewer one at a time, again only
after the one who has called it was dropped, and not at all after the first answer, which is what
all of them are told.

Main statements:

* `Consultation.pending` : a burst that has no answer yet.
* `Consultation.shared` : a burst that has one.
* `Consultation.renewals_collapse` : a burst calls the renewer once, and everybody is told what has
  come of it.
-/

namespace RemoteFile

namespace Renewal

variable {σ τ : Type}

/-- It concerns the renewer: that it is called, that it answers, or that nobody waits for it. -/
def Deed.isContact : Deed → Bool
  | .asks _ | .answered _ _ _ | .abandons _ => true
  | .nothing | .enters _ | .leaves _ _ | .quits _ => false

/-- Who has ended, and with which result. -/
def Deed.ends? : Deed → Option (Caller × Except Failure Source)
  | .answered k _ b | .leaves k b => some (k, b)
  | .nothing | .enters _ | .asks _ | .quits _ | .abandons _ => none

theorem Deed.exists_answered {d : Deed} {k : Caller} {b : Except Failure Source}
    (h : d.ends? = some (k, b)) (hans : d.isAnswer = true) :
    ∃ outcome, d = .answered k outcome b := by
  cases d with
  | answered k outcome b =>
    cases h
    exact ⟨outcome, rfl⟩
  | nothing | enters | asks | leaves | quits | abandons => cases hans

/-- What callers are told who want a URL of a generation renewed, if this is the answer. -/
def told (generation : Nat) (outcome : Except Failure FreshUrl) : Except Failure Source :=
  match usable outcome with
  | .ok signed => .ok ⟨signed.url, generation + 1, signed.expiresAt⟩
  | .error reason => .error (.renewal reason)

theorem Deals.told_self {s : Setting σ τ} {w w' : World σ} {o o' : Option Renewal} {k : Caller}
    {outcome : Except Failure FreshUrl} {b : Except Failure Source}
    (h : Deals s w o (.answered k outcome b) w' o') :
    b = told w.resolver.current.generation outcome := by
  rcases h.hears with ⟨reason, hu, hb, -⟩ | ⟨signed, early, hu, hb, -⟩ <;> rw [told, hu, hb]

theorem Deals.told_others {s : Setting σ τ} {w w' : World σ} {o o' : Option Renewal} {k : Caller}
    {outcome : Except Failure FreshUrl} {b b' : Except Failure Source} {stale : Source} {seen : Nat}
    (h : Deals s w o (.answered k outcome b) w' o') (hask : s.renewer ≠ none)
    (hgen : stale.generation = w.resolver.current.generation)
    (hlearns : Learns s w'.resolver stale seen b') :
    b' = told w.resolver.current.generation outcome := by
  rcases h.hears with ⟨reason, hu, -, hsame, -⟩ | ⟨signed, early, hu, -, hsame, -⟩ <;>
    rw [told, hu]
  · have hcurrent : w'.resolver.current = w.resolver.current := hsame.current
    cases hlearns with
    | newer hlt =>
      rw [hcurrent] at hlt
      exact absurd hgen (Nat.ne_of_lt hlt)
    | shared hle hshared =>
      unfold sharedFailure at hshared
      split at hshared
      · rw [hsame.failure] at hshared
        cases hshared
        rfl
      · cases hshared
    | refused hle hnone => exact absurd hnone hask
  · have hnext : stale.generation < w'.resolver.current.generation := by
      rw [hsame.current, hgen]
      exact Nat.lt_succ_self _
    cases hlearns with
    | newer hlt =>
      rw [hsame.current]
      rfl
    | shared hle | refused hle => exact absurd hle (Nat.not_le_of_lt hnext)

/-- Calls of the renewer that were given up one after the other, the latest first. -/
def givenUp (ks : List Caller) : List Deed := ks.flatMap fun k => [.abandons k, .asks k]

end Renewal

namespace Consultation

open Renewal

variable {σ τ : Type}

/-- Those who have called the renewer, which has not answered yet. -/
def asking (c : Calls σ) : List Caller := (renewals c).filterMap asker?

/-- Whoever joins the line, if somebody does. -/
def enters? (e : Happening σ) : Option Caller :=
  match deed e with
  | .enters k => some k
  | .nothing | .asks _ | .answered _ _ _ | .leaves _ _ | .quits _ | .abandons _ => none

/-- Whoever is dropped while the renewer is called, if somebody is. -/
def abandons? (e : Happening σ) : Option Caller :=
  match deed e with
  | .abandons k => some k
  | .nothing | .enters _ | .asks _ | .answered _ _ _ | .leaves _ _ | .quits _ => none

/-- Those who have joined the line to have the URL renewed that was current in `c₀`. -/
def burst (c₀ : Calls σ) (hs : List (Happening σ)) : List Caller :=
  (hs.filterMap enters?).filter
    fun k => k.stale.generation == c₀.world.world.resolver.current.generation

/-- Those who were dropped while the renewer was called. -/
def abandoned (hs : List (Happening σ)) : List Caller := hs.filterMap abandons?

/-- What has happened between the callers and the renewer, the latest first. -/
def contacts (hs : List (Happening σ)) : List Deed := (hs.map deed).filter Deed.isContact

variable {s : Setting σ τ} {w₀ w w' : World σ} {c₀ c c' : Calls σ} {e : Happening σ}
  {hs before : List (Happening σ)} {o o' : Option Renewal} {d : Deed} {l r : List Renewal}
  {mark : Nat}

/-! ### While the renewer has not answered -/

/-- As long as the renewer does not answer, the URL stays as it is, and whoever comes is in line
after those who came before. -/
theorem inLine_of_unanswered (hb : Crowd.Trace (rules s) (Crowd.empty (fresh w₀)) before c₀)
    (hline : InLine mark c₀.world.world.resolver (renewals c₀))
    (h : Crowd.Trace (rules s) c₀ hs c) (hnone : ∀ e ∈ hs, (deed e).isAnswer = false) :
    InLine mark c.world.world.resolver (renewals c) ∧
      Resolver.Same c₀.world.world.resolver c.world.world.resolver := by
  induction h with
  | nil => exact ⟨hline, .refl _⟩
  | @snoc hs c c' e ht hd ih =>
    obtain ⟨hl, hsame⟩ := ih fun e he => hnone e (List.mem_cons_of_mem _ he)
    have hans := hnone e List.mem_cons_self
    obtain ⟨l, r, o, o', hleft, hright, hdeals⟩ := moved (known (hb.append ht)) hd
    have hl' := (hleft ▸ hl).deals hdeals
    rw [Deed.mark, hans] at hl'
    exact ⟨hright ▸ hl', hsame.trans (hdeals.keeps hans).1⟩

theorem askers_split (l r : List Renewal) (o : Option Renewal) :
    (l ++ o.toList ++ r).filterMap asker? =
      l.filterMap asker? ++ (o.bind asker?).toList ++ r.filterMap asker? := by
  simp only [List.filterMap_append]
  cases o with
  | none => rfl
  | some a =>
    simp only [Option.toList_some, List.filterMap_cons, List.filterMap_nil, Option.bind_some]
    cases a.asker? <;> rfl

theorem askers_of_first {a : Renewal} {n : Nat} {x : Resolver}
    (h : InLine mark x (l ++ (some a).toList ++ r)) (ha : a.ticket? = some n)
    (hfirst : x.line.head? = some n) :
    l.filterMap asker? = [] ∧ r.filterMap asker? = [] := by
  have hrest := h.rest_of_first ha hfirst
  simp only [Option.toList_none, List.append_nil, List.mem_append] at hrest
  exact ⟨List.filterMap_eq_nil_iff.2 fun b hb => hrest b (.inl hb),
    List.filterMap_eq_nil_iff.2 fun b hb => hrest b (.inr hb)⟩

/-- As long as the renewer has not answered, each call of it but the last one was given up, and the
last one is under way or was given up as well. There were `first` calls before. -/
structure Unanswered (ask : Nat → RenewerReply) (first : Nat) (hs : List (Happening σ))
    (x : Resolver) (rs : List Renewal) : Prop where
  /-- What has happened between the callers and the renewer. -/
  contacts : contacts hs = (rs.filterMap asker?).map .asks ++ givenUp (abandoned hs)
  /-- How often it was called. -/
  calls : x.calls = first + (rs.filterMap asker?).length + (abandoned hs).length
  /-- The call that is under way is the one after those that were given up. -/
  outcome : ∀ r ∈ rs, ∀ {n : Nat} {due : Option Nat} {outcome : Except Failure FreshUrl},
    r.phase = .asking n due outcome → outcome = (ask (first + (abandoned hs).length)).outcome

theorem Unanswered.quiet {ask : Nat → RenewerReply} {first : Nat} {x y : Resolver}
    (h : Unanswered ask first hs x (l ++ o.toList ++ r)) (hcontact : (deed e).isContact = false)
    (hcalls : y.calls = x.calls) (hasker : o'.bind asker? = o.bind asker?)
    (ho' : ∀ b ∈ o', b.asker? ≠ none → b ∈ o) :
    Unanswered ask first (e :: hs) y (l ++ o'.toList ++ r) := by
  have habandoned : abandoned (e :: hs) = abandoned hs := by
    refine List.filterMap_cons_none ?_
    unfold abandons?
    split <;> simp_all [Deed.isContact]
  have hcontacts : Consultation.contacts (e :: hs) = Consultation.contacts hs :=
    List.filter_cons_of_neg (by rw [hcontact]; simp)
  refine ⟨?_, ?_, fun b hb {n due outcome} hphase => ?_⟩
  · rw [hcontacts, habandoned, askers_split, hasker, ← askers_split]
    exact h.contacts
  · rw [hcalls, habandoned, askers_split, hasker, ← askers_split]
    exact h.calls
  · rw [habandoned]
    refine h.outcome b ?_ hphase
    simp only [List.mem_append, Option.mem_toList] at hb ⊢
    exact hb.imp_left (.imp_right fun hb => ho' b hb (by rw [asker?_of_asking hphase]; nofun))

theorem Unanswered.asks {ask : Nat → RenewerReply} {first seen n : Nat} {due : Option Nat}
    {x y : Resolver} {a : Renewal} (h : Unanswered ask first hs x (l ++ (some a).toList ++ r))
    (hline : InLine mark x (l ++ (some a).toList ++ r)) (hd : deed e = .asks ⟨a.stale, n⟩)
    (hr : a.phase = .queued seen n) (hfirst : x.line.head? = some n)
    (hy : y.calls = x.calls + 1) :
    Unanswered ask first (e :: hs) y
      (l ++ (some { a with phase := .asking n due (ask x.calls).outcome }).toList ++ r) := by
  obtain ⟨hleft, hright⟩ := askers_of_first hline (ticket?_of_queued hr) hfirst
  have hnone : a.asker? = none := by simp only [asker?, hr]
  have habandoned : abandoned (e :: hs) = abandoned hs :=
    List.filterMap_cons_none (by rw [abandons?, hd])
  have hcontacts : Consultation.contacts (e :: hs) =
      .asks ⟨a.stale, n⟩ :: Consultation.contacts hs := by
    simp only [Consultation.contacts, List.map_cons, hd]
    rfl
  have hcs := h.contacts
  have hcalls := h.calls
  rw [askers_split, hleft, hright, Option.bind_some, hnone] at hcs hcalls
  refine ⟨?_, ?_, fun b hb {n' due' outcome} hphase => ?_⟩
  · rw [hcontacts, habandoned, hcs, askers_split, hleft, hright]
    rfl
  · rw [habandoned, askers_split, hleft, hright, hy, hcalls]
    simp [asker?]
    omega
  · rw [habandoned]
    simp only [List.mem_append, Option.mem_toList] at hb
    rcases hb with (hb | hb) | hb
    · exact h.outcome b (by simp [hb]) hphase
    · cases hb
      cases hphase
      rw [hcalls]
      rfl
    · exact h.outcome b (by simp [hb]) hphase

theorem Unanswered.abandons {ask : Nat → RenewerReply} {first n : Nat} {due : Option Nat}
    {outcome : Except Failure FreshUrl} {x y : Resolver} {a : Renewal}
    (h : Unanswered ask first hs x (l ++ (some a).toList ++ r))
    (hline : InLine mark x (l ++ (some a).toList ++ r)) (hd : deed e = .abandons ⟨a.stale, n⟩)
    (hr : a.phase = .asking n due outcome) (hy : y.calls = x.calls) :
    Unanswered ask first (e :: hs) y (l ++ (none : Option Renewal).toList ++ r) := by
  obtain ⟨hleft, hright⟩ := askers_of_first hline (ticket?_of_asking hr)
    ((hline.fits a (by simp)).asking hr).2.2
  have habandoned : abandoned (e :: hs) = ⟨a.stale, n⟩ :: abandoned hs :=
    List.filterMap_cons_some (by rw [abandons?, hd])
  have hcontacts : Consultation.contacts (e :: hs) =
      .abandons ⟨a.stale, n⟩ :: Consultation.contacts hs := by
    simp only [Consultation.contacts, List.map_cons, hd]
    rfl
  have hcs := h.contacts
  have hcalls := h.calls
  rw [askers_split, hleft, hright, Option.bind_some, asker?_of_asking hr] at hcs hcalls
  refine ⟨?_, ?_, fun b hb {n' due' outcome'} hphase => ?_⟩
  · rw [hcontacts, habandoned, hcs, askers_split, hleft, hright]
    rfl
  · rw [habandoned, askers_split, hleft, hright, hy, hcalls]
    simp
    omega
  · -- nobody else has called the renewer
    have hnone : b.asker? = none := by
      simp only [Option.toList_none, List.append_nil, List.mem_append] at hb
      rcases hb with hb | hb
      · exact List.filterMap_eq_nil_iff.1 hleft b hb
      · exact List.filterMap_eq_nil_iff.1 hright b hb
    rw [asker?_of_asking hphase] at hnone
    cases hnone

/-- Whatever happens before the renewer answers, each call but the last one was given up. -/
theorem Unanswered.deals {ask : Nat → RenewerReply} {first : Nat} (hask : s.renewer = some ask)
    (h : Unanswered ask first hs w.resolver (l ++ o.toList ++ r))
    (hline : InLine mark w.resolver (l ++ o.toList ++ r))
    (hdeals : Deals s w o (deed e) w' o') (hans : (deed e).isAnswer = false) :
    Unanswered ask first (e :: hs) w'.resolver (l ++ o'.toList ++ r) := by
  generalize hd : deed e = d at hdeals
  cases hdeals with
  | aside hw => exact h.quiet (by rw [hd]; rfl) (congrArg Resolver.calls hw.resolver) rfl nofun
  | begins hw =>
    refine h.quiet (by rw [hd]; rfl) (congrArg Resolver.calls hw.resolver) rfl fun b hb hne => ?_
    cases hb
    exact absurd rfl hne
  | enters hr hw =>
    refine h.quiet (by rw [hd]; rfl) (by rw [hw.resolver]; rfl) ?_ fun b hb hne => ?_
    · simp only [Option.bind_some, asker?, hr]
    · cases hb
      exact absurd rfl hne
  | waits hw =>
    exact h.quiet (by rw [hd]; rfl) (congrArg Resolver.calls hw.resolver) rfl fun b hb _ => hb
  | leaves hr _ _ hw | quits hr hw =>
    refine h.quiet (by rw [hd]; rfl) (by rw [hw.resolver]; rfl) ?_ nofun
    simp only [Option.bind_some, Option.bind_none, asker?, hr]
  | vanishes hr hw =>
    refine h.quiet (by rw [hd]; rfl) (congrArg Resolver.calls hw.resolver) ?_ nofun
    simp only [Option.bind_some, Option.bind_none, asker?, hr]
  | asks hr hfirst _ _ hask' hw =>
    cases hask.symm.trans hask'
    exact h.asks hline hd hr hfirst (by rw [hw.resolver]; rfl)
  | abandons hr hw => exact h.abandons hline hd hr (by rw [hw.resolver]; rfl)
  | fails | renews =>
    rw [hd] at hans
    cases hans

/-! ### Who belongs to a burst -/

theorem mem_burst_cons {k : Caller} : k ∈ burst c₀ (e :: hs) ↔
    (deed e = .enters k ∧ k.stale.generation = c₀.world.world.resolver.current.generation) ∨
      k ∈ burst c₀ hs := by
  have henters : enters? e = some k ↔ deed e = .enters k := by
    unfold enters?
    split <;> simp_all
  simp only [burst, List.mem_filter, List.mem_filterMap, List.mem_cons, beq_iff_eq]
  constructor
  · rintro ⟨⟨e', rfl | he', hk⟩, hgen⟩
    · exact .inl ⟨henters.1 hk, hgen⟩
    · exact .inr ⟨⟨e', he', hk⟩, hgen⟩
  · rintro (⟨hk, hgen⟩ | ⟨⟨e', he', hk⟩, hgen⟩)
    · exact ⟨⟨e, .inl rfl, henters.2 hk⟩, hgen⟩
    · exact ⟨⟨e', .inr he', hk⟩, hgen⟩

theorem bounds_of_mem_burst (hb : Crowd.Trace (rules s) (Crowd.empty (fresh w₀)) before c₀)
    (h : Crowd.Trace (rules s) c₀ hs c) :
    c₀.world.world.resolver.nextTicket ≤ c.world.world.resolver.nextTicket ∧
    ∀ k ∈ burst c₀ hs, c₀.world.world.resolver.nextTicket ≤ k.ticket ∧
      k.ticket < c.world.world.resolver.nextTicket ∧
      k.stale.generation = c₀.world.world.resolver.current.generation := by
  induction h with
  | nil => exact ⟨Nat.le_refl _, nofun⟩
  | @snoc hs c c' e ht hd ih =>
    obtain ⟨l, r, o, o', -, -, hdeals⟩ := moved (known (hb.append ht)) hd
    obtain ⟨hle, hbounds⟩ := ih
    refine ⟨Nat.le_trans hle hdeals.nextTicket_le, fun k hk => ?_⟩
    rcases mem_burst_cons.1 hk with ⟨hdeed, hgen⟩ | hk
    · obtain ⟨hticket, hnext⟩ := (hdeed ▸ hdeals).ticket_of_enters
      exact ⟨hticket ▸ hle, by omega, hgen⟩
    · obtain ⟨hfirst, hlast, hgen⟩ := hbounds k hk
      exact ⟨hfirst, Nat.lt_of_lt_of_le hlast hdeals.nextTicket_le, hgen⟩

theorem mem_burst_of_caller (hb : Crowd.Trace (rules s) (Crowd.empty (fresh w₀)) before c₀)
    (hline : InLine c₀.world.world.resolver.nextTicket c₀.world.world.resolver (renewals c₀))
    (h : Crowd.Trace (rules s) c₀ hs c) : ∀ a ∈ renewals c, ∀ k, a.caller? = some k →
      c₀.world.world.resolver.nextTicket ≤ k.ticket →
      k.stale.generation = c₀.world.world.resolver.current.generation → k ∈ burst c₀ hs := by
  induction h with
  | nil =>
    intro a ha k hk hle
    have hn : a.ticket? = some k.ticket := by rw [ticket?, hk, Option.map_some]
    exact absurd (hline.known _ (hline.mem_line ha hn)) (Nat.not_lt_of_ge hle)
  | @snoc hs c c' e ht hd ih =>
    obtain ⟨l, r, o, o', hleft, hright, hdeals⟩ := moved (known (hb.append ht)) hd
    intro a ha k hk hle hgen
    rw [mem_burst_cons]
    rw [hleft] at ih
    rw [hright, List.mem_append, List.mem_append, Option.mem_toList] at ha
    rcases ha with (ha | ha) | ha
    · exact .inr (ih a (by simp [ha]) k hk hle hgen)
    · generalize hd : deed e = d at hdeals
      cases hdeals with
      | aside | leaves | fails | renews | vanishes | quits | abandons => cases ha
      | begins =>
        cases ha
        cases hk
      | enters hr hw =>
        cases ha
        cases hk
        exact .inl ⟨rfl, hgen⟩
      | waits =>
        cases ha
        exact .inr (ih a (by simp) k hk hle hgen)
      | @asks _ a' _ _ _ _ hr =>
        cases ha
        refine .inr (ih a' (by simp) k ?_ hle hgen)
        rw [← hk, caller?, hr]
        rfl
    · exact .inr (ih a (by simp [ha]) k hk hle hgen)

/-- A burst that the renewer has not answered yet: `hs` is what has happened since it began. -/
structure Pending (c₀ : Calls σ) (hs : List (Happening σ)) (c : Calls σ) : Prop where
  /-- At most one call of the renewer is under way. -/
  one : (asking c).length ≤ 1
  /-- Each call before it was given up as its caller was dropped. -/
  contacts : contacts hs = (asking c).map .asks ++ givenUp (abandoned hs)
  /-- Whoever has called the renewer belongs to the burst. -/
  asked : ∀ e ∈ hs, ∀ k, deed e = .asks k → k ∈ burst c₀ hs
  /-- Nobody who belongs to it has come to an end. -/
  ended : ∀ e ∈ hs, ∀ k b, (deed e).ends? = some (k, b) → k ∉ burst c₀ hs

theorem asking_le_one {x : Resolver} {rs : List Renewal} (h : InLine mark x rs) :
    (rs.filterMap asker?).length ≤ 1 := by
  by_cases hnone : ∀ a ∈ rs, a.asker? = none
  · rw [List.filterMap_eq_nil_iff.2 hnone]
    exact Nat.zero_le _
  · simp only [not_forall] at hnone
    obtain ⟨a, ha, hne⟩ := hnone
    obtain ⟨k, hk⟩ := Option.ne_none_iff_exists'.1 hne
    obtain ⟨due, outcome, hr⟩ := phase_of_asker? hk
    obtain ⟨l, r, rfl⟩ := List.append_of_mem ha
    have hsplit : l ++ a :: r = l ++ (some a).toList ++ r := by simp
    rw [hsplit] at h ⊢
    obtain ⟨hleft, hright⟩ := askers_of_first h (ticket?_of_asking hr)
      ((h.fits a (by simp)).asking hr).2.2
    rw [askers_split, hleft, hright, Option.bind_some, hk]
    exact Nat.le_refl _

section

variable (hb : Crowd.Trace (rules s) (Crowd.empty (fresh w₀)) before c₀)
  (hline : InLine c₀.world.world.resolver.nextTicket c₀.world.world.resolver (renewals c₀))
include hb hline

theorem mem_burst_of_asks (h : Crowd.Trace (rules s) c₀ hs c)
    (hnone : ∀ e ∈ hs, (deed e).isAnswer = false) :
    ∀ e ∈ hs, ∀ k, deed e = .asks k → k ∈ burst c₀ hs := by
  induction h with
  | nil =>
    intro e he
    cases he
  | @snoc hs c c' e ht hd ih =>
    have hnone' : ∀ e ∈ hs, (deed e).isAnswer = false :=
      fun e he => hnone e (List.mem_cons_of_mem _ he)
    intro e' he' k hk
    refine mem_burst_cons.2 (.inr ?_)
    rcases List.mem_cons.1 he' with rfl | he'
    · obtain ⟨hl, hsame⟩ := inLine_of_unanswered hb hline ht hnone'
      obtain ⟨l, r, o, o', hleft, -, hdeals⟩ := moved (known (hb.append ht)) hd
      rw [hk] at hdeals
      cases hdeals with
      | @asks _ a seen n due ask hr hfirst hstale hshared hask hw =>
        have ha : a ∈ renewals c := by rw [hleft]; simp
        obtain ⟨hn, hgen⟩ := (hl.fits a ha).since_of_asks hr hstale hshared
        refine mem_burst_of_caller hb hline ht a ha _ (by rw [caller?, hr]) hn ?_
        rw [hgen, hsame.current]
    · exact ih hnone' e' he' k hk

theorem not_mem_burst_of_ends (hask : s.renewer ≠ none) (h : Crowd.Trace (rules s) c₀ hs c)
    (hnone : ∀ e ∈ hs, (deed e).isAnswer = false) :
    ∀ e ∈ hs, ∀ k b, (deed e).ends? = some (k, b) →
      k ∉ burst c₀ hs ∧ k.ticket < c.world.world.resolver.nextTicket := by
  induction h with
  | nil =>
    intro e he
    cases he
  | @snoc hs c c' e ht hd ih =>
    have hnone' : ∀ e ∈ hs, (deed e).isAnswer = false :=
      fun e he => hnone e (List.mem_cons_of_mem _ he)
    obtain ⟨l, r, o, o', hleft, -, hdeals⟩ := moved (known (hb.append ht)) hd
    -- whoever has joined meanwhile has another ticket
    have hlater : ∀ k, k ∉ burst c₀ hs → k.ticket < c.world.world.resolver.nextTicket →
        k ∉ burst c₀ (e :: hs) ∧ k.ticket < c'.world.world.resolver.nextTicket := by
      refine fun k hk hlt => ⟨fun hmem => ?_, Nat.lt_of_lt_of_le hlt hdeals.nextTicket_le⟩
      rcases mem_burst_cons.1 hmem with ⟨henters, -⟩ | hmem
      · exact Nat.ne_of_lt hlt (henters ▸ hdeals).ticket_of_enters.1
      · exact hk hmem
    intro e' he' k b hends
    rcases List.mem_cons.1 he' with rfl | he'
    · obtain ⟨hl, hsame⟩ := inLine_of_unanswered hb hline ht hnone'
      have hans := hnone e' List.mem_cons_self
      generalize hdeed : deed e' = d at hdeals hends hans
      cases hdeals with
      | @leaves _ a seen n b hr hfirst hlearns hw =>
        cases hends
        have ha : a ∈ renewals c := by rw [hleft]; simp
        refine hlater _ (fun hmem => ?_) (hl.known n (hl.mem_line ha (ticket?_of_queued hr)))
        obtain ⟨hn, -, hgen⟩ := (bounds_of_mem_burst hb ht).2 _ hmem
        exact (hl.fits a ha).not_learns hr hn (hgen.trans (by rw [hsame.current])) hask b hlearns
      | fails | renews => cases hans
      | aside | begins | enters | waits | asks | vanishes | quits | abandons => cases hends
    · obtain ⟨hmem, hlt⟩ := ih hnone' e' he' k b hends
      exact hlater k hmem hlt

theorem unanswered {ask : Nat → RenewerReply} (hask : s.renewer = some ask)
    (h : Crowd.Trace (rules s) c₀ hs c) (hnone : ∀ e ∈ hs, (deed e).isAnswer = false) :
    Unanswered ask c₀.world.world.resolver.calls hs c.world.world.resolver (renewals c) := by
  induction h with
  | nil =>
    -- nobody in line has called the renewer, as everybody in it came before the latest answer
    have hnobody : ∀ a ∈ renewals c₀, a.asker? = none := by
      intro a ha
      cases hk : a.asker? with
      | none => rfl
      | some k =>
        obtain ⟨due, outcome, hr⟩ := phase_of_asker? hk
        exact absurd (hline.known _ (hline.mem_line ha (ticket?_of_asking hr)))
          (Nat.not_lt_of_ge ((hline.fits a ha).asking hr).1)
    have hnil := List.filterMap_eq_nil_iff.2 hnobody
    refine ⟨?_, ?_, fun a ha {n due outcome} hr => ?_⟩
    · rw [hnil]
      rfl
    · rw [hnil]
      rfl
    · cases (asker?_of_asking hr).symm.trans (hnobody a ha)
  | @snoc hs c c' e ht hd ih =>
    have hnone' : ∀ e ∈ hs, (deed e).isAnswer = false :=
      fun e he => hnone e (List.mem_cons_of_mem _ he)
    obtain ⟨l, r, o, o', hleft, hright, hdeals⟩ := moved (known (hb.append ht)) hd
    have hl := (inLine_of_unanswered hb hline ht hnone').1
    rw [hright]
    exact (hleft ▸ ih hnone').deals hask (hleft ▸ hl) hdeals (hnone e List.mem_cons_self)

/-- **A burst that has no answer yet.** -/
theorem pending {ask : Nat → RenewerReply} (hask : s.renewer = some ask)
    (h : Crowd.Trace (rules s) c₀ hs c) (hnone : ∀ e ∈ hs, (deed e).isAnswer = false) :
    Pending c₀ hs c where
  one := asking_le_one (inLine_of_unanswered hb hline h hnone).1
  contacts := (unanswered hb hline hask h hnone).contacts
  asked := mem_burst_of_asks hb hline h hnone
  ended e he k b hends := by
    refine (not_mem_burst_of_ends hb hline ?_ h hnone e he k b hends).1
    rw [hask]
    nofun

end

/-! ### Once the renewer has answered -/

/-- Whoever came before an answer is in line before those who came after it; as long as somebody of
them is, the resolver has heard nothing else. -/
theorem inLine_of_answered (hb : Crowd.Trace (rules s) (Crowd.empty (fresh w₀)) before c₀)
    (hline : InLine c₀.world.world.resolver.nextTicket c₀.world.world.resolver (renewals c₀))
    (h : Crowd.Trace (rules s) c₀ hs c) :
    ∃ mark, c₀.world.world.resolver.nextTicket ≤ mark ∧
      InLine mark c.world.world.resolver (renewals c) ∧
      (mark = c₀.world.world.resolver.nextTicket ∧
        Resolver.Same c₀.world.world.resolver c.world.world.resolver ∨
        ∀ n ∈ c.world.world.resolver.line, c₀.world.world.resolver.nextTicket ≤ n) := by
  induction h with
  | nil => exact ⟨_, Nat.le_refl _, hline, .inl ⟨rfl, .refl _⟩⟩
  | @snoc hs c c' e ht hd ih =>
    obtain ⟨mark, hle, hl, hcases⟩ := ih
    obtain ⟨l, r, o, o', hleft, hright, hdeals⟩ := moved (known (hb.append ht)) hd
    rw [hleft] at hl
    have hl' := hl.deals hdeals
    rw [← hright] at hl'
    cases hans : (deed e).isAnswer with
    | false =>
      rw [Deed.mark, hans] at hl'
      refine ⟨mark, hle, hl', hcases.imp (fun hsame => ?_) fun hall n hn => ?_⟩
      · exact ⟨hsame.1, hsame.2.trans (hdeals.keeps hans).1⟩
      · rcases hdeals.mem_line hn with hn | rfl
        · exact hall n hn
        · exact Nat.le_trans hle hl.mark_le
    | true =>
      rw [Deed.mark, if_pos hans] at hl'
      refine ⟨_, Nat.le_trans hle hl.mark_le, hl', .inr fun n hn => ?_⟩
      -- whoever is answered is first in line, and came after the latest answer
      obtain ⟨first, hfirst, hmark⟩ := hl.first_of_isAnswer hdeals hans
      rcases hdeals.mem_line hn with hn | rfl
      · exact Nat.le_trans hle (Nat.le_trans hmark (hl.le_of_head hfirst hn))
      · exact Nat.le_trans hle hl.mark_le

/-- Whoever came before an answer does not call the renewer after it, and learns that answer. -/
theorem learns_of_answered (hb : Crowd.Trace (rules s) (Crowd.empty (fresh w₀)) before c₀)
    (hline : InLine c₀.world.world.resolver.nextTicket c₀.world.world.resolver (renewals c₀))
    (h : Crowd.Trace (rules s) c₀ hs c) : ∀ e ∈ hs, ∀ k : Caller,
      k.ticket < c₀.world.world.resolver.nextTicket →
      deed e ≠ .asks k ∧ ∀ b, (deed e).ends? = some (k, b) →
        ∃ seen, Learns s c₀.world.world.resolver k.stale seen b := by
  induction h with
  | nil =>
    intro e he
    cases he
  | @snoc hs c c' e ht hd ih =>
    intro e' he' k hk
    rcases List.mem_cons.1 he' with rfl | he'
    · obtain ⟨mark, hle, hl, hcases⟩ := inLine_of_answered hb hline ht
      obtain ⟨l, r, o, o', hleft, -, hdeals⟩ := moved (known (hb.append ht)) hd
      rw [hleft] at hl
      have hlate : ∀ {n}, mark ≤ n → n ≠ k.ticket :=
        fun hn heq => Nat.not_le_of_lt hk (heq ▸ Nat.le_trans hle hn)
      generalize hdeed : deed e' = d at hdeals
      cases hdeals with
      | @asks _ a seen n due ask hr hfirst hstale hshared hask hw =>
        refine ⟨?_, nofun⟩
        rintro heq
        cases heq
        exact hlate ((hl.fits a (by simp)).since_of_asks hr hstale hshared).1 rfl
      | @leaves _ a seen n b hr hfirst hlearns hw =>
        refine ⟨nofun, fun b' hb' => ?_⟩
        cases hb'
        rcases hcases with ⟨-, hsame⟩ | hall
        · exact ⟨seen, hlearns.of_same hsame⟩
        · exact absurd (hall n (hl.mem_line (by simp) (ticket?_of_queued hr))) (Nat.not_le_of_lt hk)
      | @fails _ a n _ _ _ hr hu hw | @renews _ a n _ _ _ hr hu hw =>
        refine ⟨nofun, fun b' hb' => ?_⟩
        cases hb'
        exact absurd rfl (hlate ((hl.fits a (by simp)).asking hr).1)
      | aside | begins | enters | waits | vanishes | quits | abandons => exact ⟨nofun, nofun⟩
    · exact ih e' he' k hk

/-- A burst that the renewer has answered: `hs` is what happened before, and `after` is what has
happened since. -/
structure Shared (ask : Nat → RenewerReply) (c₀ : Calls σ) (hs : List (Happening σ)) (k : Caller)
    (outcome : Except Failure FreshUrl) (b : Except Failure Source) (after : List (Happening σ))
    (c : Calls σ) : Prop where
  /-- Each call of the renewer but the one that was answered had been given up before. -/
  contacts : contacts hs = .asks k :: givenUp (abandoned hs)
  /-- The answer is that of the call after these. -/
  answer : outcome =
    (ask (c₀.world.world.resolver.calls + (abandoned hs).length)).outcome
  /-- The caller is told what it comes to. -/
  self : b = told c₀.world.world.resolver.current.generation outcome
  /-- At most one call of the renewer is under way. -/
  one : (asking c).length ≤ 1
  /-- Nobody who belongs to the burst has called the renewer since. -/
  asked : ∀ e ∈ after, ∀ m ∈ burst c₀ hs, deed e ≠ .asks m
  /-- Whoever belongs to it and has come to an end was told the same. -/
  ended : ∀ e ∈ after, ∀ m ∈ burst c₀ hs, ∀ b', (deed e).ends? = some (m, b') →
    b' = told c₀.world.world.resolver.current.generation outcome

section

variable {ask : Nat → RenewerReply} {k : Caller} {outcome : Except Failure FreshUrl}
  {b : Except Failure Source} {after : List (Happening σ)} {c'' : Calls σ}
  (hb : Crowd.Trace (rules s) (Crowd.empty (fresh w₀)) before c₀)
  (hline : InLine c₀.world.world.resolver.nextTicket c₀.world.world.resolver (renewals c₀))
  (hask : s.renewer = some ask) (h : Crowd.Trace (rules s) c₀ hs c)
include hb hline hask h

/-- **A burst that has an answer.** -/
theorem shared (hnone : ∀ e ∈ hs, (deed e).isAnswer = false) (hd : Crowd.Does (rules s) c e c')
    (hdeed : deed e = .answered k outcome b) (hafter : Crowd.Trace (rules s) c' after c'') :
    Shared ask c₀ hs k outcome b after c'' := by
  have hask' : s.renewer ≠ none := by
    rw [hask]
    nofun
  have hreach := hb.append h
  obtain ⟨hl, hsame⟩ := inLine_of_unanswered hb hline h hnone
  obtain ⟨l, r, o, o', hleft, hright, hdeals⟩ := moved (known hreach) hd
  rw [hdeed] at hdeals
  -- after the answer, everybody in line came before it
  have hl' := (hleft ▸ hl).deals hdeals
  rw [Deed.mark, Deed.isAnswer, if_pos rfl, ← hdeals.nextTicket_of_isAnswer rfl, ← hright] at hl'
  have hgen : c.world.world.resolver.current.generation =
      c₀.world.world.resolver.current.generation := by
    rw [hsame.current]
  have hlearns := learns_of_answered (hreach.snoc hd) hl' hafter
  have hmember : ∀ m ∈ burst c₀ hs, m.ticket < c'.world.world.resolver.nextTicket ∧
      m.stale.generation = c.world.world.resolver.current.generation := fun m hm => by
    obtain ⟨-, hlt, hm⟩ := (bounds_of_mem_burst hb h).2 m hm
    exact ⟨Nat.lt_of_lt_of_le hlt hdeals.nextTicket_le, hm.trans hgen.symm⟩
  obtain ⟨mark, -, hl'', -⟩ := inLine_of_answered (hreach.snoc hd) hl' hafter
  have hun := unanswered hb hline hask h hnone
  obtain ⟨a, n, due, rfl, hr, rfl⟩ : ∃ a n due, o = some a ∧ a.phase = .asking n due outcome ∧
      k = ⟨a.stale, n⟩ := by
    cases hdeals with
    | fails hr | renews hr => exact ⟨_, _, _, rfl, hr, rfl⟩
  have ha : a ∈ renewals c := by rw [hleft]; simp
  refine ⟨?_, ?_, ?_, asking_le_one hl'', fun e he m hm => ?_, fun e he m hm b' hb' => ?_⟩
  · obtain ⟨hnil, hnil'⟩ := askers_of_first (hleft ▸ hl) (ticket?_of_asking hr)
      ((hl.fits a ha).asking hr).2.2
    rw [hun.contacts, hleft, askers_split, hnil, hnil', Option.bind_some, asker?_of_asking hr]
    rfl
  · exact hun.outcome a ha hr
  · rw [← hgen]
    exact hdeals.told_self
  · exact (hlearns e he m (hmember m hm).1).1
  · obtain ⟨seen, hseen⟩ := (hlearns e he m (hmember m hm).1).2 b' hb'
    rw [← hgen]
    exact hdeals.told_others hask' (hmember m hm).2 hseen

end

/-- Whoever finds nobody in line, and wants the current URL renewed, calls the renewer with its next
turn, whatever the others do before that. -/
theorem callsNext_of_enters {ask : Nat → RenewerReply} {k : Caller} {after : List (Happening σ)}
    {c'' : Calls σ} (hask : s.renewer = some ask) (h₀ : w₀.resolver.line = [])
    (h : Crowd.Trace (rules s) (Crowd.empty (fresh w₀)) hs c) (hd : Crowd.Does (rules s) c e c')
    (hdeed : deed e = .enters k) (hempty : c.world.world.resolver.line = [])
    (hgen : k.stale.generation = c.world.world.resolver.current.generation)
    (hafter : Crowd.Trace (rules s) c' after c'') :
    ∀ a ∈ renewals c'', ∀ seen, a.phase = .queued seen k.ticket →
      CallsNext s a c''.world.world := by
  have hfirst : First k.ticket c''.world.world.resolver (renewals c'') := by
    induction hafter with
    | nil =>
      obtain ⟨mark, hline⟩ := inLine h h₀
      obtain ⟨l, r, o, o', hleft, hright, hdeals⟩ := moved (known h) hd
      rw [hright]
      exact .of_enters (hleft ▸ hline) hempty (hdeed ▸ hdeals) hgen
    | snoc ht hd' ih =>
      have hreach := (h.snoc hd).append ht
      obtain ⟨mark, hline⟩ := inLine hreach h₀
      obtain ⟨l, r, o, o', hleft, hright, hdeals⟩ := moved (known hreach) hd'
      rw [hright]
      exact (hleft ▸ ih).deals (hleft ▸ hline) hdeals
  exact fun a ha seen hr => hfirst.callsNext hask ha hr

/-- **A burst calls the renewer once, and everybody is told what has come of it.**  A burst begins
when the renewer has answered, or with the first call of all; `hs` is what has happened since then,
up to any moment before the next answer. Until then at most one call of the renewer is under way,
each one before it was given up as its caller was dropped, so that there is only one if nobody is
dropped, and nobody of the burst comes to an end. Whoever is first in line goes on by its own turn.
With the answer, nobody of the burst calls the renewer any more, and everybody is told the same.
Whoever finds nobody in line calls the renewer again. -/
theorem renewals_collapse {ask : Nat → RenewerReply} (hask : s.renewer = some ask)
    (h₀ : w₀.resolver.line = [])
    (hb : Crowd.Trace (rules s) (Crowd.empty (fresh w₀)) before c₀) (hat : atAnswer before = true)
    (h : Crowd.Trace (rules s) c₀ hs c) (hnone : ∀ e ∈ hs, (deed e).isAnswer = false) :
    Pending c₀ hs c ∧
    (∀ n, c.world.world.resolver.line.head? = some n →
      ∃ a ∈ renewals c, a.ticket? = some n ∧ Progresses s a c.world.world) ∧
    ∀ {e : Happening σ} {c' c'' : Calls σ} {after : List (Happening σ)} {k : Caller},
      Crowd.Does (rules s) c e c' → Crowd.Trace (rules s) c' after c'' →
      (∀ {outcome b}, deed e = .answered k outcome b →
        Shared ask c₀ hs k outcome b after c'') ∧
      (deed e = .enters k → c.world.world.resolver.line = [] →
        k.stale.generation = c.world.world.resolver.current.generation →
        ∀ a ∈ renewals c'', ∀ seen, a.phase = .queued seen k.ticket →
          CallsNext s a c''.world.world) := by
  have hline := inLine_of_atAnswer hb h₀ hat
  refine ⟨pending hb hline hask h hnone, fun n hn => ?_, fun hd hafter => ⟨fun hdeed => ?_, ?_⟩⟩
  · exact (inLine_of_unanswered hb hline h hnone).1.progresses hn
  · exact shared hb hline hask h hnone hd hdeed hafter
  · intro hdeed hempty hgen
    exact callsNext_of_enters hask h₀ (hb.append h) hd hdeed hempty hgen hafter

/-- The one who has a ticket at the first URL. -/
def withTicket (ticket : Nat) : Caller := ⟨⟨"https://example.com/a.bin", 0, none⟩, ticket⟩

/-- Two callers, one of which asks a busy renewer, and both are told so. -/
theorem renewals_collapse_of_two :
    ∃ hs c e c' e' c'' outcome b,
      Crowd.Trace (rules busy) (Crowd.empty (fresh (Script.world []))) hs c ∧
      Crowd.Does (rules busy) c e c' ∧ Crowd.Does (rules busy) c' e' c'' ∧
      deed e = .answered (withTicket 0) outcome (.error (.renewal "busy")) ∧
      (deed e').ends? = some (withTicket 1, b) ∧
      contacts hs = .asks (withTicket 0) :: givenUp (abandoned hs) ∧
      told 0 outcome = .error (.renewal "busy") ∧ b = told 0 outcome := by
  have hplay : ((Crowd.empty (fresh (Script.world []))).narrate (rules busy) []
      [.join ⟨0, false⟩, .join ⟨0, false⟩, .turn 0, .turn 1, .turn 0, .turn 1, .turn 0, .turn 0,
        .turn 0]).map (fun x => (x.1.map fun e => (deed e).ends?,
          x.1.map fun e => (deed e).isAnswer,
          (burst (Crowd.empty (fresh (Script.world []))) (x.1.drop 2)).contains (withTicket 1))) =
      some ([some (withTicket 1, .error (.renewal "busy")),
          some (withTicket 0, .error (.renewal "busy")), none, none, none, none, none, none, none],
        [false, true, false, false, false, false, false, false, false], true) := by
    decide +kernel
  obtain ⟨⟨told, c''⟩, htold, hseen⟩ := Option.map_eq_some_iff.1 hplay
  have ht := Crowd.trace_of_narrate .nil htold
  simp only [Prod.mk.injEq] at hseen
  obtain ⟨hends, hans, hmem⟩ := hseen
  obtain ⟨e', l, rfl, he', hl⟩ := List.map_eq_cons_iff.1 hends
  obtain ⟨e, hs, rfl, he, -⟩ := List.map_eq_cons_iff.1 hl
  simp only [List.map_cons, List.cons.injEq] at hans
  obtain ⟨-, he₁, hnone⟩ := hans
  cases ht with
  | snoc ht hd' =>
    cases ht with
    | snoc ht hd =>
      obtain ⟨outcome, hdeed⟩ := Deed.exists_answered he he₁
      have hnone' : ∀ e ∈ hs, (deed e).isAnswer = false := fun e he => by
        have hans := List.mem_map_of_mem (f := fun e => (deed e).isAnswer) he
        rw [hnone] at hans
        simpa using hans
      obtain ⟨-, -, hnext⟩ := renewals_collapse rfl rfl .nil rfl ht hnone'
      have hshared := (hnext hd (.snoc .nil hd')).1 hdeed
      refine ⟨hs, _, e, _, e', _, outcome, _, ht, hd, hd', hdeed, he', hshared.contacts,
        hshared.self.symm, ?_⟩
      exact hshared.ended e' (List.mem_singleton_self e') _ (List.contains_iff_mem.1 hmem) _ he'

end Consultation

end RemoteFile
