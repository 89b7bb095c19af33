import Mathlib.Data.Bool.Count
import RemoteFile.Proofs.Fetch.Source
import RemoteFile.Proofs.Operation.Crowd
import RemoteFile.Proofs.Transport.Script

/-!
# Renewals ahead of expiry do not cascade

A URL that is short-lived may be about to expire as soon as it is there. If every operation renewed
it then, there would be no end to it, so a URL that comes from a renewal ahead of expiry is used
until it is rejected. Each operation looks at the resolver several times before it has called the
renewer, and others may renew the URL in between; whoever calls the renewer at last still replaces
the URL that it looked at, of which it knows that it did not come from such a renewal.

The history of the URLs is told by `renewedIn`: one entry for each renewal that has succeeded, true
if it was one ahead of expiry. In it there are no two of these next to each other.

Main statements:

* `Operation.hears_of_does` : what the resolver hears is what is told.
* `Operation.not_isEarly_of_flag` : a renewal ahead of expiry does not replace the URL of another.
* `Operation.early_renewals_never_cascade` : what follows for how many there are.
-/

namespace RemoteFile

namespace Renewal

variable {σ τ : Type} {s : Setting σ τ} {r : Renewal} {w w' : World σ}
  {t : Turn Renewal (Except Failure Source)}

theorem stale_of_asks? {early : Bool} (h : r.step s w = (t, w'))
    (ha : r.asks? t.next? = some early) :
    early = r.early ∧ w.resolver.current.generation ≤ r.stale.generation := by
  have hdeals := deals_step h
  unfold asks? at ha
  split at ha
  · rename_i seen ticket stale early' ticket' due outcome hr hnext
    cases ha
    refine ⟨rfl, ?_⟩
    rw [hnext] at hdeals
    generalize r.deed _ _ = d at hdeals
    cases hdeals with
    | waits => cases hr
    | asks hphase hfirst hstale => exact hstale
  · cases ha

theorem asking_of_renewed? {next : Option Renewal} {early : Bool}
    (h : r.renewed? next = some early) :
    next = none ∧ early = r.early ∧ ∃ ticket due outcome, r.phase = .asking ticket due outcome := by
  unfold renewed? at h
  split at h
  · rename_i ticket due outcome hr
    split at h
    · cases h
      exact ⟨rfl, rfl, _, _, _, hr⟩
    · cases h
  · cases h

end Renewal

namespace Operation

variable {σ τ κ α β : Type} {s : Setting σ τ} {works : Kinds σ κ α β} {w₀ : World σ}
  {c c' : Operations σ κ α β} {e : Happening κ α β} {hs : List (Happening κ α β)}

/-- The renewal that is under way after a turn. -/
def nextRenewal (t : Turn (κ × Operation α) (Except Failure β)) : Option Renewal :=
  t.next?.bind fun x => x.2.renewal?

/-- Is the renewer called, and is that ahead of expiry? -/
def asks? : Happening κ α β → Option Bool
  | .turns _ x t => x.2.renewal?.bind fun r => r.asks? (nextRenewal t)
  | .joins _ | .drops _ _ | .outside => none

/-- Is the URL renewed, and is that ahead of expiry? -/
def renewed? : Happening κ α β → Option Bool
  | .turns _ x t => x.2.renewal?.bind fun r => r.renewed? (nextRenewal t)
  | .joins _ | .drops _ _ | .outside => none

/-- Is the URL of an attempt rejected, and to be renewed? -/
def rejects : Happening κ α β → Bool
  | .turns _ x t => x.2.renewing?.isNone && (t.next?.bind fun x => x.2.renewing?).isSome
  | .joins _ | .drops _ _ | .outside => false

/-- The renewals that have succeeded, the latest first: was it one ahead of expiry? -/
def renewedIn (hs : List (Happening κ α β)) : List Bool := hs.filterMap renewed?

/-- How many rejected URLs are being renewed. -/
def renewingIn (c : Operations σ κ α β) : Nat := c.tasks.countP fun x => x.2.2.renewing?.isSome

theorem nextRenewal_eq {x : κ × Operation α} {ot : Turn (Operation α) (Except Failure β)}
    {t : Turn (κ × Operation α) (Except Failure β)} (h : t.next? = ot.next?.map (x.1, ·)) :
    nextRenewal t = ot.next?.bind renewal? := by
  rw [nextRenewal, h, Option.bind_map]
  rfl

/-- **What the resolver hears is what is told.** -/
theorem hears_of_does (hworks : works.Aloof) (h : Crowd.Does (rules s works) c e c') :
    Resolver.Hears c.world.resolver c'.world.resolver (asks? e) (renewed? e) := by
  cases h with
  | joins w ts rs k => exact .nothing rfl rfl rfl
  | @turns w w' x t l r rs k hstep =>
    obtain ⟨ot, hot, hnext⟩ := step_rules hstep
    have hresolves := resolves (hworks.step x.1) hot
    rw [asks?, renewed?, nextRenewal_eq hnext]
    change Resolver.Hears w.resolver w'.resolver _ _
    generalize ot.next? = next at hresolves
    cases hresolves with
    | looks hnone hw =>
      rw [hnone, hw.resolver]
      exact .nothing rfl rfl rfl
    | nears hphase hw | rejects hphase hw =>
      rw [renewal?, hphase, hw.resolver]
      exact .nothing rfl rfl rfl
    | refreshes hphase hrt hw hgo =>
      rw [renewal?, hphase, hgo, hw.resolver]
      exact Renewal.hears_step hrt
    | renews hphase hrt hgo =>
      rw [renewal?, hphase, hgo]
      exact Renewal.hears_step hrt
  | drops w x l r rs k => exact hears_drop (hworks.drop x.1) x.2 w
  | outside ts rs hout =>
    rw [hout.resolver]
    exact .nothing rfl rfl rfl

theorem Resolves.step_of_renewal? {o : Operation α} {w w' : World σ}
    {next : Option (Operation α)} {r : Renewal} (h : Resolves s o w next w')
    (hr : o.renewal? = some r) :
    ∃ rt w₁, r.step s w = (rt, w₁) ∧ next.bind renewal? = rt.next? := by
  cases h with
  | looks hnone hw =>
    rw [hnone] at hr
    cases hr
  | nears hphase hw | rejects hphase hw =>
    rw [renewal?, hphase] at hr
    cases hr
  | refreshes hphase hrt hw hgo | renews hphase hrt hgo =>
    rw [renewal?, hphase] at hr
    cases hr
    exact ⟨_, _, hrt, hgo⟩

theorem turn_of_flag {early : Bool} (hworks : works.Aloof)
    (h : Crowd.Does (rules s works) c e c')
    (he : asks? e = some early ∨ renewed? e = some early) :
    ∃ x ∈ c.tasks, ∃ r rt w₁, x.2.2.renewal? = some r ∧ r.step s c.world = (rt, w₁) ∧
      (r.asks? rt.next? = some early ∨ r.renewed? rt.next? = some early) := by
  cases h with
  | @turns w w' x t l r rs k hstep =>
    obtain ⟨ot, hot, hnext⟩ := step_rules hstep
    have hresolves := resolves (hworks.step x.1) hot
    refine ⟨(k, x), by simp, ?_⟩
    rcases he with he | he <;> obtain ⟨r', hr', hflag⟩ := Option.bind_eq_some_iff.1 he <;>
      obtain ⟨rt, w₁, hrt, hgo⟩ := hresolves.step_of_renewal? hr' <;>
      rw [nextRenewal_eq hnext, hgo] at hflag
    · exact ⟨r', rt, w₁, hr', hrt, .inl hflag⟩
    · exact ⟨r', rt, w₁, hr', hrt, .inr hflag⟩
  | joins | drops | outside => rcases he with he | he <;> cases he

/-- A renewal ahead of expiry of the current URL is one of a URL that did not come from such a
renewal itself. -/
theorem not_isEarly_of_stale {w : World σ} {o : Operation α} {r : Renewal} (ho : Aligned w o)
    (hr : o.renewal? = some r) (hearly : r.early = true)
    (hstale : w.resolver.current.generation ≤ r.stale.generation) :
    w.resolver.isEarly w.resolver.current = false := by
  obtain ⟨b, phase⟩ := o
  cases phase with
  | choosing | resting due | attempting used a => cases hr
  | refreshing r' =>
    cases hr
    obtain ⟨-, hlt | ⟨-, hnot⟩⟩ := ho
    · exact absurd hstale (Nat.not_le_of_lt hlt)
    · exact hnot
  | renewing r' =>
    cases hr
    have hreactive : r.early = false := ho
    rw [hearly] at hreactive
    cases hreactive

/-- **Neither a call of the renewer ahead of expiry nor its answer replaces a URL that comes from
another one.** -/
theorem not_isEarly_of_flag (hworks : works.Aloof) (h₀ : w₀.resolver.line = [])
    (ht : Crowd.Trace (rules s works) (Crowd.empty w₀) hs c)
    (h : Crowd.Does (rules s works) c e c')
    (he : asks? e = some true ∨ renewed? e = some true) :
    c.world.resolver.isEarly c.world.resolver.current = false := by
  obtain ⟨x, hx, r, rt, w₁, hr, hrt, hflag⟩ := turn_of_flag hworks h he
  have ho := aligned hworks ht x hx
  rcases hflag with hasks | hrenewed
  · obtain ⟨hearly, hstale⟩ := Renewal.stale_of_asks? hrt hasks
    exact not_isEarly_of_stale ho hr hearly.symm hstale
  · -- whoever waits for the renewer keeps all others from renewing the URL
    obtain ⟨-, hearly, ticket, due, outcome, hasking⟩ := Renewal.asking_of_renewed? hrenewed
    obtain ⟨mark, hline⟩ := inLine hworks ht h₀
    have hmem : r ∈ renewals c := List.mem_filterMap.2 ⟨x, hx, hr⟩
    obtain ⟨-, hsame, -⟩ := (hline.fits r hmem).asking hasking
    exact not_isEarly_of_stale ho hr hearly.symm (Nat.le_of_eq hsame.symm)

/-- What the history says is what the resolver knows. -/
structure Chronicled (hs : List (Happening κ α β)) (c : Operations σ κ α β) : Prop where
  /-- Each renewal that has succeeded has begun a generation. -/
  generation : c.world.resolver.current.generation = (renewedIn hs).length
  /-- The resolver knows whether the latest one was ahead of expiry. -/
  early : c.world.resolver.isEarly c.world.resolver.current = true ↔
    (renewedIn hs).head? = some true
  /-- There are no two of these next to each other. -/
  apart : (renewedIn hs).count true ≤
    (renewedIn hs).count false + if (renewedIn hs).head? = some true then 1 else 0
  /-- Any other one was made because a URL was rejected. -/
  rejected : (renewedIn hs).count false + renewingIn c ≤ hs.countP rejects

theorem renewal?_of_renewing? {o : Operation α} {r : Renewal} (h : o.renewing? = some r) :
    o.renewal? = some r := by
  obtain ⟨b, phase⟩ := o
  cases phase with
  | renewing r' => exact h
  | choosing | refreshing | attempting | resting => cases h

theorem renewing_of_renewed? {w : World σ} {k : κ} {x : κ × Operation α}
    {t : Turn (κ × Operation α) (Except Failure β)} (ho : Aligned w x.2)
    (h : renewed? (.turns k x t) = some false) :
    x.2.renewing?.isSome = true ∧ (t.next?.bind fun x => x.2.renewing?) = none := by
  obtain ⟨r, hr, hflag⟩ := Option.bind_eq_some_iff.1 h
  obtain ⟨hnext, hearly, -⟩ := Renewal.asking_of_renewed? hflag
  constructor
  · obtain ⟨k', b, phase⟩ := x
    cases phase with
    | choosing | resting due | attempting used a => cases hr
    | refreshing r' =>
      cases hr
      have htrue : r.early = true := ho.1
      rw [htrue] at hearly
      cases hearly
    | renewing r' => rfl
  · -- the renewal has ended, so that none is under way
    refine Option.eq_none_iff_forall_ne_some.2 fun r' hr' => ?_
    obtain ⟨y, hy, hrenewing⟩ := Option.bind_eq_some_iff.1 hr'
    rw [nextRenewal, hy, Option.bind_some, renewal?_of_renewing? hrenewing] at hnext
    cases hnext

theorem rejected_of_does (hall : ∀ x ∈ c.tasks, Aligned c.world x.2.2)
    (h : Crowd.Does (rules s works) c e c') :
    (renewed? e).toList.count false + renewingIn c' ≤
      renewingIn c + if rejects e then 1 else 0 := by
  cases h with
  | joins w ts rs k =>
    rw [renewingIn, List.countP_append]
    exact Nat.le_of_eq (Nat.zero_add _)
  | @turns w w' x t l r rs k hstep =>
    have ho : Aligned w x.2 := hall (k, x) (by simp)
    have hnext : ((t.next?.map (k, ·)).toList.countP fun x => x.2.2.renewing?.isSome) =
        if (t.next?.bind fun x => x.2.renewing?).isSome then 1 else 0 := by
      cases t.next? with
      | none => rfl
      | some y => exact List.countP_singleton
    have hflag : (renewed? (.turns k x t)).toList.count false =
        if renewed? (.turns k x t) = some false then 1 else 0 := by
      cases renewed? (.turns k x t) with
      | none => rfl
      | some early => cases early <;> rfl
    have hrejects : rejects (.turns k x t) =
        (x.2.renewing?.isNone && (t.next?.bind fun x => x.2.renewing?).isSome) := rfl
    rw [hrejects]
    simp only [renewingIn, List.countP_append, List.countP_cons, hnext, hflag]
    by_cases hrenewed : renewed? (.turns k x t) = some false
    · obtain ⟨hbefore, hafter⟩ := renewing_of_renewed? ho hrenewed
      rw [if_pos hrenewed, if_pos hbefore, hafter]
      simp only [Option.isSome_none, Bool.false_eq_true, if_false]
      omega
    · rw [if_neg hrenewed]
      cases x.2.renewing? with
      | none =>
        simp only [Option.isNone_none, Option.isSome_none, Bool.true_and, Bool.false_eq_true,
          if_false]
        omega
      | some r' =>
        simp only [Option.isSome_some, if_true]
        split <;> omega
  | drops w x l r rs k =>
    simp only [renewingIn, List.countP_append, List.countP_cons, renewed?, Option.toList_none,
      List.count_nil]
    omega
  | outside ts rs hout => exact Nat.le_of_eq (Nat.zero_add _)

theorem renewedIn_cons (e : Happening κ α β) (hs : List (Happening κ α β)) :
    renewedIn (e :: hs) = (renewed? e).toList ++ renewedIn hs := by
  rw [renewedIn, List.filterMap_cons]
  cases renewed? e <;> rfl

/-- One more renewal that has succeeded; not two of them ahead of expiry next to each other. -/
theorem apart_cons {l : List Bool} {early : Bool}
    (h : l.count true ≤ l.count false + if l.head? = some true then 1 else 0)
    (he : early = true → l.head? ≠ some true) :
    (early :: l).count true ≤
      (early :: l).count false + if (early :: l).head? = some true then 1 else 0 := by
  cases early with
  | true =>
    rw [if_neg (he rfl)] at h
    simpa using h
  | false =>
    have hhead : (if l.head? = some true then 1 else 0) ≤ 1 := by
      split
      · exact Nat.le_refl 1
      · exact Nat.zero_le 1
    have hle := Nat.le_trans h (Nat.add_le_add_left hhead _)
    simpa using hle

theorem Chronicled.does (hworks : works.Aloof) (h₀ : w₀.resolver.line = [])
    (ht : Crowd.Trace (rules s works) (Crowd.empty w₀) hs c) (hc : Chronicled hs c)
    (h : Crowd.Does (rules s works) c e c') : Chronicled (e :: hs) c' := by
  have hheard := hears_of_does hworks h
  have hrejected := rejected_of_does (aligned hworks ht) h
  have hlast := hc.rejected
  have hnot : renewed? e = some true → (renewedIn hs).head? ≠ some true := by
    intro he hhead
    have hfalse := not_isEarly_of_flag hworks h₀ ht h (.inr he)
    rw [hc.early.2 hhead] at hfalse
    cases hfalse
  have hcons := renewedIn_cons e hs
  have hcounted : (renewedIn (e :: hs)).count false + renewingIn c' ≤
      (e :: hs).countP rejects := by
    rw [hcons, List.count_append, List.countP_cons]
    omega
  -- the resolver hears of at most one renewal
  generalize asks? e = asked at hheard
  generalize renewed? e = renewed at hheard hnot hcons
  cases hheard with
  | nothing hcurrent hearly =>
    have hsame : renewedIn (e :: hs) = renewedIn hs := hcons
    refine ⟨?_, ?_, ?_, hcounted⟩
    · rw [hcurrent, hsame]
      exact hc.generation
    · rw [hsame, Resolver.isEarly, hcurrent, hearly]
      exact hc.early
    · rw [hsame]
      exact hc.apart
  | @renewed early hgen hearly =>
    have hmore : renewedIn (e :: hs) = early :: renewedIn hs := hcons
    refine ⟨?_, ?_, ?_, hcounted⟩
    · rw [hgen, hc.generation, hmore]
      rfl
    · rw [hmore, Resolver.isEarly, hearly]
      cases early <;> simp
    · rw [hmore]
      exact apart_cons hc.apart fun heq => hnot (congrArg some heq)

/-- **The history tells what the resolver knows.** -/
theorem chronicled {url : String} {expiresAt : Option Int} (hworks : works.Aloof)
    (h₀ : w₀.resolver = Resolver.fresh url expiresAt)
    (ht : Crowd.Trace (rules s works) (Crowd.empty w₀) hs c) : Chronicled hs c := by
  have hline : w₀.resolver.line = [] := by
    rw [h₀]
    rfl
  refine ht.invariant (I := Chronicled) ⟨?_, ?_, ?_, ?_⟩ fun {hs c e c'} ht hc h =>
    hc.does hworks hline ht h
  · change w₀.resolver.current.generation = 0
    rw [h₀]
    rfl
  · change w₀.resolver.isEarly w₀.resolver.current = true ↔ none = some true
    rw [h₀]
    simp [Resolver.fresh, Resolver.isEarly]
  · exact Nat.zero_le _
  · exact Nat.le_refl _

theorem renews_of_trace (hworks : works.Aloof)
    (ht : Crowd.Trace (rules s works) (Crowd.empty w₀) hs c) : w₀.Renews c.world := by
  refine ht.invariant (I := fun _ c => w₀.Renews c.world) (.refl w₀) fun {hs c e c'} ht hc h => ?_
  obtain ⟨l, r, o, o', d, -, -, hdeals⟩ := moved hworks (aligned hworks ht) h
  exact hc.trans (Renewal.renews_of_deals hdeals)

/-- An attempt fails in a turn of its operation, and its URL is the one that was rejected. -/
def Refused (works : Kinds σ κ α β) (w : World σ) : Happening κ α β → Prop
  | .turns _ x _ => ∃ used a f, x.2.phase = .attempting used a ∧
      ((works x.1).step a w).1 = .done (.error f) ∧ f.retryClass = .renew
  | .joins _ | .drops _ _ | .outside => False

theorem refused_of_rejects (h : Crowd.Does (rules s works) c e c') (he : rejects e = true) :
    Refused works c.world e := by
  cases h with
  | @turns w w' x t l r rs k hstep =>
    obtain ⟨ot, hot, hnext⟩ := step_rules hstep
    obtain ⟨k', b, phase⟩ := x
    simp only [rejects, hnext, Option.bind_map, Bool.and_eq_true] at he
    obtain ⟨hbefore, hafter⟩ := he
    have hstage := stage hot
    generalize hot' : ot = t' at hstage
    subst hot'
    cases hstage with
    | rejects ha hf hb hr => exact ⟨_, _, _, rfl, congrArg Prod.fst ha, hf⟩
    | renews hstep hr ht | renewed hstep | unrenewed hstep => cases hbefore
    | refreshes hstep hr ht | works hstep ha ht =>
      rw [ht] at hafter
      cases hafter
    | backsOff hstep hf hb hphase =>
      rcases hphase with rfl | ⟨due, rfl⟩ <;> cases hafter
    | begins | nears | refreshed | stale | succeeds | breaks | exhausts | rests | wakes =>
      cases hafter
  | joins | drops | outside => cases he

/-- **Renewals ahead of expiry do not cascade.**  Any number of operations share a resolver that
nobody else uses, whatever their attempts come to, however short-lived the URLs are and whatever the
margin is. A renewal ahead of expiry, from the call of the renewer on until it succeeds, never
replaces a URL that comes from another one. So there is at most one more of these than there are
renewals of rejected URLs; and if no attempt is rejected, there is at most one renewal at all. -/
theorem early_renewals_never_cascade {url : String} {expiresAt : Option Int}
    (hworks : works.Aloof) (h₀ : w₀.resolver = Resolver.fresh url expiresAt)
    (h : Crowd.Trace (rules s works) (Crowd.empty w₀) hs c) :
    (renewedIn hs).length = c.world.resolver.current.generation ∧
      c.world.counters.renewals = w₀.counters.renewals + (renewedIn hs).length ∧
      (renewedIn hs).count true ≤ 1 + (renewedIn hs).count false ∧
      (renewedIn hs).count false ≤ hs.countP rejects ∧
      ((∀ e ∈ hs, rejects e = false) → (renewedIn hs).length ≤ 1) ∧
      ∀ e c', Crowd.Does (rules s works) c e c' →
        c'.world.resolver.calls = c.world.resolver.calls + (asks? e).toList.length ∧
        (asks? e = some true ∨ renewed? e = some true → (renewedIn hs).head? ≠ some true) ∧
        (rejects e = true → Refused works c.world e) := by
  have hc := chronicled hworks h₀ h
  have hline : w₀.resolver.line = [] := by
    rw [h₀]
    rfl
  have happart : (renewedIn hs).count true ≤ 1 + (renewedIn hs).count false := by
    refine Nat.le_trans hc.apart ?_
    rw [Nat.add_comm]
    exact Nat.add_le_add_right (by split <;> decide) _
  have hrejected : (renewedIn hs).count false ≤ hs.countP rejects :=
    Nat.le_trans (Nat.le_add_right _ _) hc.rejected
  refine ⟨hc.generation.symm, ?_, happart, hrejected, fun hnone => ?_, fun e c' hd => ⟨?_, ?_, ?_⟩⟩
  · have hgen := (renews_of_trace hworks h).generation
    have hfresh : w₀.resolver.current.generation = 0 := by
      rw [h₀]
      rfl
    rw [hfresh, hc.generation] at hgen
    omega
  · have hzero : hs.countP rejects = 0 :=
      List.countP_eq_zero.2 fun e he => by rw [hnone e he]; decide
    have hlen := List.count_true_add_count_false (renewedIn hs)
    omega
  · exact (hears_of_does hworks hd).calls_eq
  · intro hflag hhead
    have hnot := not_isEarly_of_flag hworks hline h hd hflag
    rw [hc.early.2 hhead] at hnot
    cases hnot
  · exact refused_of_rejects hd

/-- The attempts of reads through a pool use the URL that they are given, and no resolver. -/
theorem aloof_attempts (s : Setting σ τ) :
    Kinds.Aloof fun k : Wanted => Fetch.attempts s k.offset k.len where
  step _ _ _ := Fetch.unrenewed_step rfl
  drop _ f w := Fetch.unrenewed_drop s f w

/-- Operations whose first attempt is rejected, or none. -/
def someRejected : Kinds Script.State Bool Nat Unit
  | true => .given [.error (.status 403 "https://example.com/a.bin")] ()
  | false => .given [] ()

theorem aloof_someRejected : someRejected.Aloof where
  step k a w := by cases k <;> exact .refl w
  drop k a w := by cases k <;> exact .refl w

/-- Every URL is about to expire as soon as it is there. -/
def shortLived : Setting Script.State Script.Ticket :=
  Script.renewing 4 ⟨1, 0, .ofSeconds 10, none⟩ 3 fun _ =>
    ⟨some 0, .ok ⟨"https://example.com/a.bin?sig=1", some 0⟩⟩

/-- The first URL is so as well. -/
def shortLivedWorld : World Script.State :=
  .fresh ⟨[], []⟩ "https://example.com/a.bin" (some 0)

/-- Two operations renew the URL ahead of expiry together. The attempt of one of them is rejected,
so that there is a second such renewal; nothing of the kind happens to a third operation. -/
def threeShortLived : List (Crowd.Deed Bool) :=
  [.join true, .join false, .turn 0, .turn 1, .turn 0, .turn 1, .turn 0, .turn 0, .turn 1, .turn 1,
    .turn 0, .turn 0, .turn 0, .turn 0, .turn 0, .turn 0, .turn 0, .turn 0, .turn 0, .join false,
    .turn 0, .turn 0]

/-- Two renewals ahead of expiry and one of a rejected URL; three calls of the renewer in all. -/
theorem early_renewals_never_cascade_of_three :
    ∃ hs c, Crowd.Trace (rules shortLived someRejected) (Crowd.empty shortLivedWorld) hs c ∧
      renewedIn hs = [true, false, true] ∧ hs.countP rejects = 1 ∧ c.results.length = 3 ∧
      c.world.resolver.calls = 3 ∧
      (renewedIn hs).count true ≤ 1 + (renewedIn hs).count false := by
  have hplay : ((Crowd.narrate (rules shortLived someRejected) [] threeShortLived
      (Crowd.empty shortLivedWorld)).map fun x => (renewedIn x.1, x.1.countP rejects,
        x.2.results.length, x.2.world.resolver.calls)) = some ([true, false, true], 1, 3, 3) := rfl
  obtain ⟨⟨hs, c⟩, hnarrate, hview⟩ := Option.map_eq_some_iff.1 hplay
  have htrace := Crowd.trace_of_narrate .nil hnarrate
  have hbound := (early_renewals_never_cascade aloof_someRejected rfl htrace).2.2.1
  simp only [Prod.mk.injEq] at hview
  obtain ⟨hrenewed, hrejects, hresults, hcalls⟩ := hview
  exact ⟨hs, c, htrace, hrenewed, hrejects, hresults, hcalls, hbound⟩

end Operation

end RemoteFile
