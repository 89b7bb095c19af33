import RemoteFile.Proofs.Operation.Course
import RemoteFile.Proofs.Renewal.Line
import RemoteFile.Proofs.World.Requests

/-!
# Crowds of operations

Any number of operations that share one resolver, each with attempts of its own, join, take their
turns and are dropped whenever they like, while the rest of the world changes as it likes. The
resolver is used by the operations only: to look at the current URL, to renew it ahead of expiry,
and to renew it after it was rejected.

Main statements:

* `Operation.resolves` : what a turn of an operation does with the resolver.
* `Operation.moved` : what happens in such a crowd is the deed of one renewal.
* `Operation.aligned` : what every operation knows of the current URL.
* `Operation.inLine` : those who renew stand in line.
-/

namespace RemoteFile

/-- What a resolver hears in one step. The renewer may be called, and there may be another URL; the
flags tell whether that is ahead of expiry. -/
inductive Resolver.Hears (x y : Resolver) : Option Bool → Option Bool → Prop
  /-- The URL stays the same. -/
  | nothing {asked : Option Bool} (hcurrent : y.current = x.current)
      (hearly : y.earlyGeneration = x.earlyGeneration)
      (hcalls : y.calls = x.calls + asked.toList.length) : Hears x y asked none
  /-- There is another one. -/
  | renewed {early : Bool} (hgen : y.current.generation = x.current.generation + 1)
      (hearly : y.earlyGeneration = if early then some y.current.generation else none)
      (hcalls : y.calls = x.calls) : Hears x y none (some early)

theorem Resolver.Hears.calls_eq {x y : Resolver} {asked renewed : Option Bool}
    (h : Hears x y asked renewed) : y.calls = x.calls + asked.toList.length := by
  cases h with
  | nothing hcurrent hearly hcalls | renewed hgen hearly hcalls => exact hcalls

namespace Renewal

variable {σ τ : Type} {s : Setting σ τ} {r r' : Renewal} {w w₁ w' : World σ}
  {o o' : Option Renewal} {d : Deed} {t : Turn Renewal (Except Failure Source)}

theorem Deals.unrenewed (h : Deals s w o d w₁ o') (hw : w₁.Unrenewed w') :
    Deals s w o d w' o' := by
  cases h with
  | aside h => exact .aside (h.trans hw)
  | begins h hstale => exact .begins (h.trans hw) hstale
  | enters hr h => exact .enters hr (h.trans hw)
  | waits h => exact .waits (h.trans hw)
  | asks hr hfirst hstale hshared hask h => exact .asks hr hfirst hstale hshared hask (h.trans hw)
  | leaves hr hfirst hb h => exact .leaves hr hfirst hb (h.trans hw)
  | fails hr hu h => exact .fails hr hu (h.trans hw)
  | renews hr hu h => exact .renews hr hu (h.trans hw)
  | vanishes hr h => exact .vanishes hr (h.trans hw)
  | quits hr h => exact .quits hr (h.trans hw)
  | abandons hr h => exact .abandons hr (h.trans hw)

theorem same_of_next? (h : r.step s w = (t, w')) (ht : t.next? = some r') :
    r'.stale = r.stale ∧ r'.early = r.early := by
  have hdeals := deals_step h
  rw [ht] at hdeals
  generalize r.deed (some r') t.result? = d at hdeals
  cases hdeals with
  | enters | waits | asks => exact ⟨rfl, rfl⟩

/-- Is the renewer called in a turn after which the renewal stands so, and is that ahead of
expiry? -/
def asks? (r : Renewal) (next : Option Renewal) : Option Bool :=
  match r.phase, next with
  | .queued _ _, some ⟨_, _, .asking _ _ _⟩ => some r.early
  | _, _ => none

/-- Is the URL renewed in a turn after which the renewal stands so, and is that ahead of expiry? -/
def renewed? (r : Renewal) (next : Option Renewal) : Option Bool :=
  match r.phase, next with
  | .asking _ _ (outcome), none =>
    match usable outcome with
    | .ok _ => some r.early
    | .error _ => none
  | _, _ => none

theorem hears_takeTurn {stale : Source} {early : Bool} {seen ticket : Nat}
    (h : takeTurn s ⟨stale, early, .queued seen ticket⟩ seen ticket w = (t, w')) :
    Resolver.Hears w.resolver w'.resolver
      (asks? ⟨stale, early, .queued seen ticket⟩ t.next?) none := by
  simp only [takeTurn] at h
  split at h
  · cases h
    exact .nothing rfl rfl rfl
  · split at h
    · cases h
      exact .nothing rfl rfl rfl
    · split at h <;> cases h <;> exact .nothing rfl rfl rfl

theorem hears_step (h : r.step s w = (t, w')) :
    Resolver.Hears w.resolver w'.resolver (r.asks? t.next?) (r.renewed? t.next?) := by
  obtain ⟨stale, early, phase⟩ := r
  cases phase with
  | arriving =>
    cases h
    exact .nothing rfl rfl rfl
  | queued seen ticket =>
    simp only [step] at h
    split at h
    · exact hears_takeTurn h
    · cases h
      exact .nothing rfl rfl rfl
  | asking ticket due outcome =>
    simp only [step] at h
    split at h
    · simp only [complete] at h
      split at h <;> rename_i hu <;> cases h
      · simp only [renewed?, Turn.next?_done, hu]
        exact .nothing rfl rfl rfl
      · simp only [renewed?, Turn.next?_done, hu]
        exact .renewed rfl rfl rfl
    · cases h
      exact .nothing rfl rfl rfl

theorem hears_drop (r : Renewal) (w : World σ) :
    Resolver.Hears w.resolver (r.drop w).resolver none none := by
  unfold drop
  split <;> exact .nothing rfl rfl rfl

end Renewal

namespace Operation

variable {σ τ κ α β : Type} {s : Setting σ τ}

/-- Operations of several kinds, each with attempts of its own. -/
abbrev Kinds (σ κ α β : Type) := κ → Attempts (World σ) α β

/-- None of the attempts uses the resolver. -/
structure Kinds.Aloof (works : Kinds σ κ α β) : Prop where
  /-- A turn of an attempt does not. -/
  step : ∀ k a (w : World σ), w.Unrenewed ((works k).step a w).2
  /-- Nor does dropping one. -/
  drop : ∀ k a (w : World σ), w.Unrenewed ((works k).drop a w)

/-- Operations, each with its kind, as tasks. -/
def among (s : Setting σ τ) (works : Kinds σ κ α β) :
    Actor (World σ) (κ × Operation α) (Except Failure β) :=
  ⟨fun x w =>
      let (t, w) := x.2.step s (works x.1) w
      (t.map (x.1, ·) id, w),
    fun x w => x.2.drop (works x.1) w⟩

/-- Operations that share one resolver. -/
def rules (s : Setting σ τ) (works : Kinds σ κ α β) :
    Crowd.Rules (World σ) κ (κ × Operation α) (Except Failure β) :=
  ⟨among s works, fun k => (k, fresh), World.Unrenewed⟩

/-- Operations that are under way. -/
abbrev Operations (σ κ α β : Type) :=
  Crowd (World σ) κ (κ × Operation α) (Except Failure β)

/-- The renewals that are under way. -/
def renewals (c : Operations σ κ α β) : List Renewal :=
  c.tasks.filterMap fun x => x.2.2.renewal?

section

variable {work : Attempts (World σ) α β} {o o' : Operation α} {w w' : World σ}
  {t : Turn (Operation α) (Except Failure β)}

/-- What a turn of an operation does with the resolver. -/
inductive Resolves (s : Setting σ τ) (o : Operation α) (w : World σ) :
    Option (Operation α) → World σ → Prop
  /-- It looks at the current URL at most. -/
  | looks {next : Option (Operation α)} {w' : World σ} (ho : o.renewal? = none)
      (hw : w.Unrenewed w') (hnext : next.bind renewal? = none)
      (hused : ∀ o' ∈ next, ∀ used a, o'.phase = .attempting used a →
        used = w'.resolver.current ∨ ∃ a₀, o.phase = .attempting used a₀) :
      Resolves s o w next w'
  /-- It begins to renew the current URL ahead of expiry. -/
  | nears {w' : World σ} (ho : o.phase = .choosing) (hw : w.Unrenewed w')
      (hearly : w.resolver.isEarly w.resolver.current = false) :
      Resolves s o w (some ⟨o.budget, .refreshing (Renewal.start w.resolver.current true)⟩) w'
  /-- It begins to renew the URL that an attempt was rejected at. -/
  | rejects {used : Source} {a : α} {b : Budget} {w' : World σ}
      (ho : o.phase = .attempting used a) (hw : w.Unrenewed w') :
      Resolves s o w (some ⟨b, .renewing (Renewal.start used false)⟩) w'
  /-- The renewal ahead of expiry takes a turn; when it ends, an attempt may begin. -/
  | refreshes {r : Renewal} {rt : Turn Renewal (Except Failure Source)}
      {next : Option (Operation α)} {w₁ w' : World σ} (ho : o.phase = .refreshing r)
      (h : r.step s w = (rt, w₁)) (hw : w₁.Unrenewed w') (hnext : next.bind renewal? = rt.next?)
      (hgo : ∀ o' ∈ next, (∃ r', o'.phase = .refreshing r') ∨
        ∃ a, o'.phase = .attempting w'.resolver.current a) : Resolves s o w next w'
  /-- The renewal of a rejected URL takes a turn. -/
  | renews {r : Renewal} {rt : Turn Renewal (Except Failure Source)}
      {next : Option (Operation α)} {w' : World σ} (ho : o.phase = .renewing r)
      (h : r.step s w = (rt, w')) (hnext : next.bind renewal? = rt.next?)
      (hgo : ∀ o' ∈ next, (∃ r', o'.phase = .renewing r') ∨ o'.phase = .choosing) :
      Resolves s o w next w'

/-- **What a turn of an operation does with the resolver.** -/
theorem resolves (hwork : ∀ a (w : World σ), w.Unrenewed (work.step a w).2)
    (h : o.step s work w = (t, w')) : Resolves s o w t.next? w' := by
  have hworked : ∀ {a : α} {ta : Turn α (Except Failure β)} {w₁ : World σ},
      work.step a w = (ta, w₁) → w.Unrenewed w₁ := fun {a _ _} hstep => by
    have hw := hwork a w
    rwa [hstep] at hw
  obtain ⟨b, phase⟩ := o
  cases stage h with
  | begins hw =>
    refine .looks rfl ?_ rfl ?_
    · rcases hw with rfl | rfl <;> exact ⟨rfl, rfl⟩
    · rintro o' ho' used a hphase
      cases Option.mem_some.1 ho'
      cases hphase
      refine .inl ?_
      rcases hw with rfl | rfl <;> rfl
  | nears hearly => exact .nears rfl ⟨rfl, rfl⟩ hearly
  | refreshes hstep hr ht =>
    rw [ht]
    refine .refreshes rfl hstep (.refl _) hr.symm fun o' ho' => .inl ?_
    cases Option.mem_some.1 ho'
    exact ⟨_, rfl⟩
  | refreshed hstep =>
    have hcurrent := Renewal.current_of_done hstep
    refine .refreshes rfl hstep ⟨rfl, rfl⟩ rfl fun o' ho' => .inr ?_
    cases Option.mem_some.1 ho'
    exact ⟨_, congrArg₂ Phase.attempting hcurrent rfl⟩
  | stale hstep => exact .refreshes rfl hstep (.refl _) rfl fun o' ho' => nomatch ho'
  | works hstep ha ht =>
    rw [ht]
    refine .looks rfl (hworked hstep) rfl fun o' ho' used' a'' hphase => .inr ?_
    cases Option.mem_some.1 ho'
    cases hphase
    exact ⟨_, rfl⟩
  | succeeds hstep | breaks hstep =>
    exact .looks rfl (hworked hstep) rfl fun o' ho' => nomatch ho'
  | exhausts hstep =>
    exact .looks rfl ((hworked hstep).trans ⟨rfl, rfl⟩) rfl fun o' ho' => nomatch ho'
  | rejects hstep => exact .rejects rfl ((hworked hstep).trans ⟨rfl, rfl⟩)
  | @backsOff _ a f w₁ _ hstep hf hb hphase =>
    have hrested : w₁.Unrenewed (rested s (b.attempts + 1)
      (Backoff.delay s.options.retry b.attempts) f w₁) := ⟨rfl, rfl⟩
    refine .looks rfl ((hworked hstep).trans hrested) ?_ fun o' ho' used' a' hused => ?_
    · rcases hphase with rfl | ⟨due, rfl⟩ <;> rfl
    · cases Option.mem_some.1 ho'
      rcases hphase with rfl | ⟨due, rfl⟩ <;> cases hused
  | renews hstep hr ht =>
    rw [ht]
    refine .renews rfl hstep hr.symm fun o' ho' => .inl ?_
    cases Option.mem_some.1 ho'
    exact ⟨_, rfl⟩
  | renewed hstep =>
    refine .renews rfl hstep rfl fun o' ho' => .inr ?_
    cases Option.mem_some.1 ho'
    rfl
  | unrenewed hstep => exact .renews rfl hstep rfl fun o' ho' => nomatch ho'
  | rests | wakes =>
    refine .looks rfl (.refl w) rfl fun o' ho' used a hphase => ?_
    cases Option.mem_some.1 ho'
    cases hphase

/-! ### What an operation knows of the current URL -/

/-- What an operation knows of the current URL: that of its attempt was current once, and so was the
one that it renews ahead of expiry. If that still is, then it did not come from such a renewal
itself. -/
def Aligned (w : World σ) (o : Operation α) : Prop :=
  match o.phase with
  | .choosing | .resting _ => True
  | .refreshing r => r.early = true ∧
    (r.stale.generation < w.resolver.current.generation ∨
      r.stale.generation = w.resolver.current.generation ∧
        w.resolver.isEarly w.resolver.current = false)
  | .attempting used _ => used.generation ≤ w.resolver.current.generation
  | .renewing r => r.early = false

/-- The URL is still the same, or there is a later one. -/
def Advances (x y : Resolver) : Prop :=
  (y.current = x.current ∧ y.earlyGeneration = x.earlyGeneration) ∨
    x.current.generation < y.current.generation

theorem Advances.refl (x : Resolver) : Advances x x := .inl ⟨rfl, rfl⟩

theorem Advances.of_unrenewed (h : w.Unrenewed w') : Advances w.resolver w'.resolver := by
  rw [h.resolver]
  exact .refl _

theorem Advances.of_hears {x y : Resolver} {asked renewed : Option Bool}
    (h : Resolver.Hears x y asked renewed) : Advances x y := by
  cases h with
  | nothing hcurrent hearly => exact .inl ⟨hcurrent, hearly⟩
  | renewed hgen hearly =>
    refine .inr ?_
    rw [hgen]
    exact Nat.lt_succ_self _

theorem Advances.generation_le {x y : Resolver} (h : Advances x y) :
    x.current.generation ≤ y.current.generation := by
  rcases h with ⟨hcurrent, -⟩ | hlt
  · exact Nat.le_of_eq (congrArg Source.generation hcurrent.symm)
  · exact Nat.le_of_lt hlt

theorem Aligned.advances (ho : Aligned w o) (h : Advances w.resolver w'.resolver) :
    Aligned w' o := by
  obtain ⟨b, phase⟩ := o
  cases phase with
  | choosing | resting due => trivial
  | attempting used a => exact Nat.le_trans ho h.generation_le
  | renewing r => exact ho
  | refreshing r =>
    obtain ⟨hr, hstale⟩ := ho
    refine ⟨hr, ?_⟩
    rcases h with ⟨hcurrent, hearly⟩ | hlt
    · rw [Resolver.isEarly, hcurrent, hearly]
      exact hstale
    · have hle : r.stale.generation ≤ w.resolver.current.generation :=
        hstale.elim Nat.le_of_lt fun hsame => Nat.le_of_eq hsame.1
      exact .inl (Nat.lt_of_le_of_lt hle hlt)

theorem Resolves.advances {next : Option (Operation α)} (h : Resolves s o w next w') :
    Advances w.resolver w'.resolver := by
  cases h with
  | looks ho hw | nears ho hw | rejects ho hw => exact .of_unrenewed hw
  | refreshes ho hstep hw =>
    rw [hw.resolver]
    exact .of_hears (Renewal.hears_step hstep)
  | renews ho hstep => exact .of_hears (Renewal.hears_step hstep)

/-- **An operation goes on knowing of the current URL.** -/
theorem Resolves.aligned (ho : Aligned w o) (h : Resolves s o w (some o') w') :
    Aligned w' o' := by
  have hstill := ho.advances h.advances
  obtain ⟨b', phase'⟩ := o'
  cases h with
  | looks hnone hw hnext hused =>
    cases phase' with
    | choosing | resting due => trivial
    | refreshing r | renewing r => cases hnext
    | attempting used a =>
      rcases hused _ rfl used a rfl with rfl | ⟨a₀, ha₀⟩
      · exact Nat.le_refl _
      · rw [Aligned, ha₀] at hstill
        exact hstill
  | nears hphase hw hearly =>
    rw [Aligned, hw.resolver]
    exact ⟨rfl, .inr ⟨rfl, hearly⟩⟩
  | rejects hphase hw => rfl
  | refreshes hphase hstep hw hnext hgo =>
    rw [Aligned, hphase] at hstill
    rcases hgo _ rfl with ⟨r', rfl⟩ | ⟨a, rfl⟩
    · -- it is still the same renewal, about which the same is known
      obtain ⟨hstale, hearly⟩ := Renewal.same_of_next? hstep hnext.symm
      change r'.early = true ∧ (r'.stale.generation < _ ∨ r'.stale.generation = _ ∧ _)
      rw [hstale, hearly]
      exact hstill
    · exact Nat.le_refl _
  | renews hphase hstep hnext hgo =>
    rw [Aligned, hphase] at hstill
    rcases hgo _ rfl with ⟨r', rfl⟩ | rfl
    · change r'.early = false
      rw [(Renewal.same_of_next? hstep hnext.symm).2]
      exact hstill
    · trivial

theorem Resolves.deals {next : Option (Operation α)} (ho : Aligned w o)
    (h : Resolves s o w next w') :
    ∃ d, Renewal.Deals s w o.renewal? d w' (next.bind renewal?) := by
  cases h with
  | looks hnone hw hnext =>
    rw [hnone, hnext]
    exact ⟨_, .aside hw⟩
  | nears hphase hw hearly =>
    rw [renewal?, hphase]
    exact ⟨_, .begins hw (Nat.le_refl _)⟩
  | rejects hphase hw =>
    rw [Aligned, hphase] at ho
    rw [renewal?, hphase]
    exact ⟨_, .begins hw ho⟩
  | refreshes hphase hstep hw hnext =>
    rw [renewal?, hphase, hnext]
    exact ⟨_, (Renewal.deals_step hstep).unrenewed hw⟩
  | renews hphase hstep hnext =>
    rw [renewal?, hphase, hnext]
    exact ⟨_, Renewal.deals_step hstep⟩

theorem deals_drop (hwork : ∀ a (w : World σ), w.Unrenewed (work.drop a w)) (o : Operation α)
    (w : World σ) : ∃ d, Renewal.Deals s w o.renewal? d (o.drop work w) none := by
  obtain ⟨b, phase⟩ := o
  cases phase with
  | choosing | resting due => exact ⟨_, .aside (.refl w)⟩
  | attempting used a => exact ⟨_, .aside (hwork a w)⟩
  | refreshing r | renewing r => exact ⟨_, Renewal.deals_drop s r w⟩

theorem hears_drop (hwork : ∀ a (w : World σ), w.Unrenewed (work.drop a w)) (o : Operation α)
    (w : World σ) : Resolver.Hears w.resolver (o.drop work w).resolver none none := by
  unfold drop
  split
  · exact .nothing rfl rfl rfl
  · exact .nothing rfl rfl rfl
  · exact Renewal.hears_drop _ w
  · exact Renewal.hears_drop _ w
  · rw [(hwork _ w).resolver]
    exact .nothing rfl rfl rfl

end

/-! ### What happens in a crowd -/

/-- Something that happens among operations. -/
abbrev Happening (κ α β : Type) := Crowd.Happening κ (κ × Operation α) (Except Failure β)

section

variable {works : Kinds σ κ α β} {w₀ : World σ} {c c' : Operations σ κ α β} {e : Happening κ α β}
  {hs : List (Happening κ α β)}

theorem turn_rules {x : κ × Operation α} {w w' : World σ}
    {t : Turn (κ × Operation α) (Except Failure β)}
    (h : (rules s works).actor.step x w = (t, w')) :
    ∃ ot, x.2.step s (works x.1) w = (ot, w') ∧ t = ot.map (x.1, ·) id := by
  rcases hot : x.2.step s (works x.1) w with ⟨ot, w₁⟩
  have heq : (rules s works).actor.step x w = (ot.map (x.1, ·) id, w₁) := by
    simp only [rules, among, hot]
  cases heq.symm.trans h
  exact ⟨ot, rfl, rfl⟩

theorem step_rules {x : κ × Operation α} {w w' : World σ}
    {t : Turn (κ × Operation α) (Except Failure β)}
    (h : (rules s works).actor.step x w = (t, w')) :
    ∃ ot, x.2.step s (works x.1) w = (ot, w') ∧ t.next? = ot.next?.map (x.1, ·) := by
  obtain ⟨ot, hot, rfl⟩ := turn_rules h
  refine ⟨ot, hot, ?_⟩
  cases ot <;> rfl

/-- Every operation knows of the current URL what it has to. -/
theorem aligned (hworks : works.Aloof)
    (h : Crowd.Trace (rules s works) (Crowd.empty w₀) hs c) :
    ∀ x ∈ c.tasks, Aligned c.world x.2.2 := by
  refine (h.reachable.separate (W := fun _ => True)
    (E := fun w w' => Advances w.resolver w'.resolver) (T := fun w _ x => Aligned w x.2)
    (R := fun _ _ => True) ⟨?_, ?_, ?_, ?_, ?_⟩ trivial).2.1
  · exact fun _ _ => trivial
  · exact fun hx hadvances => hx.advances hadvances
  · intro w w' k x t _ hx hstep
    obtain ⟨ot, hot, hnext⟩ := step_rules hstep
    have hresolves := resolves (hworks.step x.1) hot
    refine ⟨trivial, hresolves.advances, fun x' hx' => ?_, fun _ _ => trivial⟩
    rw [hnext] at hx'
    obtain ⟨o', ho', rfl⟩ := Option.map_eq_some_iff.1 hx'
    rw [ho'] at hresolves
    exact hresolves.aligned hx
  · intro w k x _ _
    exact ⟨trivial, .of_hears (hears_drop (hworks.drop x.1) x.2 w)⟩
  · exact fun _ hout => ⟨trivial, .of_unrenewed hout⟩

theorem renewals_split (w : World σ) (l r : List (κ × κ × Operation α)) (k : κ)
    (o : Option (κ × Operation α)) (rs : List (κ × Except Failure β)) :
    renewals ⟨w, l ++ (o.map (k, ·)).toList ++ r, rs⟩ =
      l.filterMap (fun x => x.2.2.renewal?) ++ (o.bind fun x => x.2.renewal?).toList ++
        r.filterMap fun x => x.2.2.renewal? := by
  simp only [renewals, List.filterMap_append]
  cases o with
  | none => rfl
  | some a =>
    simp only [Option.map_some, Option.toList_some, List.filterMap_cons, List.filterMap_nil,
      Option.bind_some]
    cases a.2.renewal? <;> rfl

/-- **What happens among operations is the deed of one renewal at most.** -/
theorem moved (hworks : works.Aloof) (hall : ∀ x ∈ c.tasks, Aligned c.world x.2.2)
    (h : Crowd.Does (rules s works) c e c') :
    ∃ l r o o' d, renewals c = l ++ o.toList ++ r ∧ renewals c' = l ++ o'.toList ++ r ∧
      Renewal.Deals s c.world o d c'.world o' := by
  cases h with
  | joins w ts rs k =>
    refine ⟨ts.filterMap fun x => x.2.2.renewal?, [], none, none, _, by simp [renewals], ?_,
      .aside (.refl w)⟩
    simp [renewals, rules, fresh, renewal?]
  | @turns w w' x t l r rs k hstep =>
    have hbefore := renewals_split w l r k (some x) rs
    simp only [Option.map_some, Option.toList_some, List.append_assoc, List.singleton_append,
      Option.bind_some] at hbefore
    obtain ⟨ot, hot, hnext⟩ := step_rules hstep
    obtain ⟨d, hd⟩ := (resolves (hworks.step x.1) hot).deals (hall (k, x) (by simp))
    refine ⟨_, _, _, _, d, by rw [hbefore, List.append_assoc],
      renewals_split w' l r k t.next? _, ?_⟩
    rw [hnext, Option.bind_map]
    exact hd
  | drops w x l r rs k =>
    have hbefore := renewals_split w l r k (some x) rs
    simp only [Option.map_some, Option.toList_some, List.append_assoc, List.singleton_append,
      Option.bind_some] at hbefore
    have hafter := renewals_split ((rules s works).actor.drop x w) l r k none rs
    simp only [Option.map_none, Option.toList_none, List.append_nil] at hafter
    obtain ⟨d, hd⟩ := deals_drop (s := s) (hworks.drop x.1) x.2 w
    exact ⟨_, _, _, none, d, by rw [hbefore, List.append_assoc], by rw [hafter]; simp, hd⟩
  | outside ts rs hout =>
    exact ⟨ts.filterMap fun x => x.2.2.renewal?, [], none, none, _, by simp [renewals],
      by simp [renewals], .aside hout⟩

/-- Those who renew stand in line. -/
theorem inLine (hworks : works.Aloof)
    (h : Crowd.Trace (rules s works) (Crowd.empty w₀) hs c) (h₀ : w₀.resolver.line = []) :
    ∃ mark, Renewal.InLine mark c.world.resolver (renewals c) := by
  refine h.invariant (I := fun _ c => ∃ mark, Renewal.InLine mark c.world.resolver (renewals c))
    ⟨_, .empty h₀⟩ ?_
  rintro hs c e c' ht ⟨mark, hline⟩ hd
  obtain ⟨l, r, o, o', d, hl, hl', hdeals⟩ := moved hworks (aligned hworks ht) hd
  rw [hl] at hline
  rw [hl']
  exact ⟨_, hline.deals hdeals⟩

end

end Operation

end RemoteFile
