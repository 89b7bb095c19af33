import RemoteFile.Proofs.Consultation.Crowd
import RemoteFile.Proofs.Transport.Script

/-!
# What a resolver knows

A trace of callers tells what the renewer has answered. The state of the resolver is a function of
these answers: how many there were, whether the last one was a failure, and which URL was the last
one that can be used. What a caller is told comes from an answer that was given after its call
began.

Main statements:

* `Consultation.knows` : the state of the resolver is what the renewer has answered.
* `Consultation.entered` : whoever is in line has joined it, and has seen what was answered before.
* `Consultation.state_of_answers` : the state and the outcomes in every crowd that can be reached.
-/

namespace RemoteFile

namespace Renewal

/-- The URL in an answer of the renewer, if it can be used. -/
def accepted? : Except Failure FreshUrl → Option FreshUrl
  | .error _ => none
  | .ok signed =>
    match Url.parse signed.url with
    | .ok _ => some signed
    | .error _ => none

/-- The reason in an answer of the renewer why there is no URL. -/
def reason? (outcome : Except Failure FreshUrl) : Option String :=
  match usable outcome with
  | .ok _ => none
  | .error reason => some reason

theorem reason?_eq_some_iff {outcome : Except Failure FreshUrl} {reason : String} :
    reason? outcome = some reason ↔ usable outcome = .error reason := by
  unfold reason?
  split <;> simp_all

theorem accepted?_of_usable_ok {outcome : Except Failure FreshUrl} {signed : FreshUrl}
    (h : usable outcome = .ok signed) : accepted? outcome = some signed := by
  unfold usable at h
  split at h
  · cases h
  · cases h
  · split at h
    · rename_i hu
      cases h
      simp only [accepted?, hu]
    · cases h

theorem accepted?_of_usable_error {outcome : Except Failure FreshUrl} {reason : String}
    (h : usable outcome = .error reason) : accepted? outcome = none := by
  unfold usable at h
  split at h
  · rfl
  · rfl
  · split at h
    · cases h
    · rename_i hu
      simp only [accepted?, hu]

theorem isSome_reason?_iff {outcome : Except Failure FreshUrl} :
    (reason? outcome).isSome ↔ accepted? outcome = none := by
  unfold reason?
  cases h : usable outcome with
  | ok signed => simp [accepted?_of_usable_ok h]
  | error reason => simp [accepted?_of_usable_error h]

end Renewal

namespace Consultation

open Renewal

variable {σ τ : Type}

/-- The answer of the renewer, if this is one. -/
def answer? (e : Happening σ) : Option (Except Failure FreshUrl) :=
  match deed e with
  | .answered _ outcome _ => some outcome
  | .nothing | .enters _ | .asks _ | .leaves _ _ | .quits _ | .abandons _ => none

/-- What the renewer has answered, the latest first. -/
def answers (hs : List (Happening σ)) : List (Except Failure FreshUrl) := hs.filterMap answer?

variable {s : Setting σ τ} {w₀ w w' : World σ} {c c' : Calls σ} {e : Happening σ}
  {hs : List (Happening σ)} {o o' : Option Renewal} {d : Deed}

theorem answer?_eq_some_iff {outcome : Except Failure FreshUrl} :
    answer? e = some outcome ↔ ∃ c b, deed e = .answered c outcome b := by
  unfold answer?
  split <;> simp_all

theorem answer?_eq_none_iff : answer? e = none ↔ (deed e).isAnswer = false := by
  unfold answer?
  split <;> simp_all [Deed.isAnswer]

/-- The state of a resolver that was fresh once, and has heard these answers, the latest first. -/
structure Knows (url : String) (expiresAt : Option Int) (os : List (Except Failure FreshUrl))
    (w : World σ) : Prop where
  /-- Every answer is counted. -/
  completed : w.resolver.completed = os.length
  /-- Every URL among them began a generation. -/
  generation : w.resolver.current.generation = (os.filterMap accepted?).length
  /-- They are counted as well. -/
  renewals : w.counters.renewals = (os.filterMap accepted?).length
  /-- The reason is that of the latest answer. -/
  failure : w.resolver.failure = os.head?.bind reason?
  /-- The URL is the latest one. -/
  current : (w.resolver.current.url, w.resolver.current.expiresAt) =
    ((os.filterMap accepted?).head?.map fun signed => (signed.url, signed.expiresAt)).getD
      (url, expiresAt)

section

variable {url : String} {expiresAt : Option Int} {os : List (Except Failure FreshUrl)}

theorem Knows.keeps (h : Knows url expiresAt os w) (hd : Deals s w o d w' o')
    (hans : d.isAnswer = false) : Knows url expiresAt os w' := by
  obtain ⟨hsame, hcount⟩ := hd.keeps hans
  refine ⟨?_, ?_, ?_, ?_, ?_⟩
  · rw [hsame.completed, h.completed]
  · rw [hsame.current, h.generation]
  · rw [hcount, h.renewals]
  · rw [hsame.failure, h.failure]
  · rw [hsame.current, h.current]

theorem Knows.hears {k : Caller} {outcome : Except Failure FreshUrl} {b : Except Failure Source}
    (h : Knows url expiresAt os w) (hd : Deals s w o (.answered k outcome b) w' o') :
    Knows url expiresAt (outcome :: os) w' := by
  rcases hd.hears with ⟨reason, hu, -, hsame, hcount⟩ | ⟨signed, early, hu, -, hsame, hcount⟩
  · have hnone := accepted?_of_usable_error hu
    refine ⟨?_, ?_, ?_, ?_, ?_⟩
    · rw [hsame.completed, List.length_cons, ← h.completed]
      rfl
    · rw [hsame.current, List.filterMap_cons_none hnone, ← h.generation]
      rfl
    · rw [hcount, List.filterMap_cons_none hnone, h.renewals]
    · rw [hsame.failure, List.head?_cons, Option.bind_some, reason?_eq_some_iff.2 hu]
      rfl
    · rw [hsame.current, List.filterMap_cons_none hnone, ← h.current]
      rfl
  · have hsome := accepted?_of_usable_ok hu
    refine ⟨?_, ?_, ?_, ?_, ?_⟩
    · rw [hsame.completed, List.length_cons, ← h.completed]
      rfl
    · rw [hsame.current, List.filterMap_cons_some hsome, List.length_cons, ← h.generation]
      rfl
    · rw [hcount, List.filterMap_cons_some hsome, List.length_cons, h.renewals]
    · rw [hsame.failure, List.head?_cons, Option.bind_some, reason?, hu]
      rfl
    · rw [hsame.current, List.filterMap_cons_some hsome]
      rfl

/-- **The state of the resolver is what the renewer has answered.** -/
theorem knows (h : Crowd.Trace (rules s) (Crowd.empty (fresh w₀)) hs c)
    (h₀ : w₀.resolver = Resolver.fresh url expiresAt) (hn : w₀.counters.renewals = 0) :
    Knows url expiresAt (answers hs) c.world.world := by
  refine h.invariant (I := fun hs c => Knows url expiresAt (answers hs) c.world.world) ?_
    fun {hs c e c'} ht hk hd => ?_
  · change Knows url expiresAt [] w₀
    exact ⟨by rw [h₀]; rfl, by rw [h₀]; rfl, hn, by rw [h₀]; rfl, by rw [h₀]; rfl⟩
  · obtain ⟨l, r, o, o', -, -, hdeals⟩ := moved (known ht) hd
    cases hans : answer? e with
    | none =>
      rw [answers, List.filterMap_cons_none hans]
      exact hk.keeps hdeals (answer?_eq_none_iff.1 hans)
    | some outcome =>
      obtain ⟨k, b, hdeed⟩ := answer?_eq_some_iff.1 hans
      rw [answers, List.filterMap_cons_some hans]
      exact hk.hears (hdeed ▸ hdeals)

end

/-! ### When a call began -/

/-- The renewal has joined the line, and has seen as many answers as there were before that. -/
def Entered (hs : List (Happening σ)) (r : Renewal) : Prop :=
  ∀ k, r.caller? = some k → ∃ after e before, hs = after ++ e :: before ∧ deed e = .enters k ∧
    ∀ seen n, r.phase = .queued seen n → seen = (answers before).length

theorem Entered.later {r : Renewal} (h : Entered hs r) (e : Happening σ) : Entered (e :: hs) r := by
  intro k hk
  obtain ⟨after, e', before, rfl, hdeed, hseen⟩ := h k hk
  exact ⟨e :: after, e', before, rfl, hdeed, hseen⟩

theorem entered_of_deals (hdeals : Deals s w o (deed e) w' o')
    (ho : ∀ r ∈ o, Entered hs r) (hcompleted : w.resolver.completed = (answers hs).length) :
    ∀ r ∈ o', Entered (e :: hs) r := by
  intro r' hr'
  generalize hd : deed e = d at hdeals
  cases hdeals with
  | aside | leaves | fails | renews | vanishes | quits | abandons => cases hr'
  | begins =>
    cases hr'
    intro k hk
    cases hk
  | waits =>
    cases hr'
    exact (ho _ rfl).later e
  | enters hr hw =>
    cases hr'
    intro k hk
    cases hk
    refine ⟨[], e, hs, rfl, hd, fun seen n hphase => ?_⟩
    cases hphase
    exact hcompleted
  | asks hr =>
    cases hr'
    intro k hk
    obtain ⟨after, e', before, rfl, hdeed, -⟩ := ho _ rfl k (by rw [← hk, caller?, hr]; rfl)
    refine ⟨e :: after, e', before, rfl, hdeed, fun seen n hphase => ?_⟩
    cases hphase

/-- **Whoever is in line has joined it, and has seen what was answered before.** -/
theorem entered {url : String} {expiresAt : Option Int}
    (h : Crowd.Trace (rules s) (Crowd.empty (fresh w₀)) hs c)
    (h₀ : w₀.resolver = Resolver.fresh url expiresAt) (hn : w₀.counters.renewals = 0) :
    ∀ r ∈ renewals c, Entered hs r := by
  refine h.invariant (I := fun hs c => ∀ r ∈ renewals c, Entered hs r) nofun
    fun {hs c e c'} ht hent hd r hr => ?_
  obtain ⟨l, l', o, o', hl, hl', hdeals⟩ := moved (known ht) hd
  rw [hl', List.mem_append, List.mem_append, Option.mem_toList] at hr
  rw [hl] at hent
  rcases hr with (hr | hr) | hr
  · exact (hent r (by simp [hr])).later e
  · exact entered_of_deals hdeals (fun r hr => hent r (by simp [Option.mem_def.1 hr]))
      (knows ht h₀ hn).completed r hr
  · exact (hent r (by simp [hr])).later e

/-! ### What callers are told -/

theorem newer_of_done {r : Renewal} {u : Source} {mark : Nat} {rs : List Renewal}
    (h : r.step s w = (.done (.ok u), w')) (hline : InLine mark w.resolver rs) (hr : r ∈ rs) :
    r.stale.generation < u.generation := by
  rcases ends_of_step h with ⟨seen, n, -, hlearns⟩ | ⟨n, due, outcome, -, hdeals⟩
  · cases hlearns with
    | newer hlt => exact hlt
  · rcases hdeals.hears with ⟨reason, -, hb, -⟩ | ⟨signed, early, -, hb, -⟩
    · cases hb
    · cases hb
      exact Nat.lt_succ_of_le (hline.fits r hr).stale

/-- A failure that is shared with one who has seen what was answered before was answered after
that. -/
theorem answered_of_shared {url : String} {expiresAt : Option Int} {reason : String}
    {after : List (Happening σ)} {e₁ : Happening σ}
    (hk : Knows url expiresAt (answers (after ++ e₁ :: hs)) w) (he₁ : answer? e₁ = none)
    (h : sharedFailure (answers hs).length w.resolver = some reason) :
    ∃ outcome ∈ answers after, usable outcome = .error reason := by
  have happend : answers (after ++ e₁ :: hs) = answers after ++ answers hs := by
    rw [answers, List.filterMap_append, List.filterMap_cons_none he₁]
    rfl
  rw [happend] at hk
  unfold sharedFailure at h
  split at h
  · rename_i hlt
    -- more was answered than has been seen, so that the latest answer came after that
    rw [hk.completed, List.length_append] at hlt
    have hne : answers after ≠ [] := List.ne_nil_of_length_pos (by omega)
    rw [hk.failure, List.head?_append_of_ne_nil _ hne] at h
    obtain ⟨outcome, hhead, hreason⟩ := Option.bind_eq_some_iff.1 h
    exact ⟨outcome, List.mem_of_mem_head? hhead, reason?_eq_some_iff.1 hreason⟩
  · cases h

theorem answered_of_done {url : String} {expiresAt : Option Int} {r : Renewal} {reason : String}
    (h : r.step s w = (.done (.error (.renewal reason)), w')) (hs₀ : s.renewer.isSome)
    (hent : Entered hs r) (hk : Knows url expiresAt (answers hs) w)
    (he : ∀ {n due outcome}, r.phase = .asking n due outcome → answer? e = some outcome) :
    ∃ after e₁ before k outcome, hs = after ++ e₁ :: before ∧ r.caller? = some k ∧
      deed e₁ = .enters k ∧ outcome ∈ answers (e :: after) ∧ usable outcome = .error reason := by
  rcases ends_of_step h with ⟨seen, n, hr, hlearns⟩ | ⟨n, due, outcome, hr, hdeals⟩
  · have hcaller : r.caller? = some ⟨r.stale, n⟩ := by rw [caller?, hr]
    obtain ⟨after, e₁, before, rfl, hdeed, hseen⟩ := hent _ hcaller
    have he₁ : answer? e₁ = none := answer?_eq_none_iff.2 (by rw [hdeed]; rfl)
    have hshared := hlearns.sharedFailure_eq hs₀
    rw [hseen seen n hr] at hshared
    obtain ⟨outcome, hmem, hu⟩ := answered_of_shared hk he₁ hshared
    refine ⟨after, e₁, before, _, outcome, rfl, hcaller, hdeed, ?_, hu⟩
    exact (List.sublist_cons_self e after).filterMap answer? |>.subset hmem
  · have hcaller : r.caller? = some ⟨r.stale, n⟩ := by rw [caller?, hr]
    obtain ⟨after, e₁, before, rfl, hdeed, -⟩ := hent _ hcaller
    refine ⟨after, e₁, before, _, outcome, rfl, hcaller, hdeed, ?_, ?_⟩
    · rw [answers, List.filterMap_cons_some (he hr)]
      exact List.mem_cons_self
    · rcases hdeals.hears with ⟨reason', hu, hb, -⟩ | ⟨signed, early, -, hb, -⟩
      · cases hb
        exact hu
      · cases hb

/-- **The resolver knows what the renewer has answered, and tells callers of nothing older than
their calls.**  Whoever renews, looks at the URL, or is dropped, and whatever the renewer answers
and when: the generation is the number of answers with a URL that can be used, which is counted as
well; all answers are counted; there is a failure if and only if the latest answer is one; and the
URL is the latest one that was answered. In the next step, whatever it is, the generation does not
decrease, and the URL stays as it is unless another one is answered. A caller that is told a URL is
told a newer one than its own, and a failure that a caller is told of was answered after the call
had begun. -/
theorem state_of_answers {url : String} {expiresAt : Option Int}
    (h₀ : w₀.resolver = Resolver.fresh url expiresAt) (hn : w₀.counters.renewals = 0)
    (h : Crowd.Trace (rules s) (Crowd.empty (fresh w₀)) hs c) :
    Knows url expiresAt (answers hs) c.world.world ∧
    (c.world.world.resolver.failure.isSome ↔
      ∃ outcome ∈ (answers hs).head?, accepted? outcome = none) ∧
    ∀ {e : Happening σ} {c' : Calls σ}, Crowd.Does (rules s) c e c' →
      c.world.world.resolver.current.generation ≤ c'.world.world.resolver.current.generation ∧
      ((answer? e).bind accepted? = none →
        c'.world.world.resolver.current = c.world.world.resolver.current ∧
        c'.world.world.resolver.earlyGeneration = c.world.world.resolver.earlyGeneration) ∧
      ∀ {k : Handback} {r : Renewal} {b : Except Failure Source},
        e = .turns k (.going r) (.done b) →
        (∀ u, b = .ok u → r.stale.generation < u.generation) ∧
        ∀ reason, s.renewer.isSome → b = .error (.renewal reason) →
          ∃ after e₁ before caller outcome, hs = after ++ e₁ :: before ∧
            r.caller? = some caller ∧ deed e₁ = .enters caller ∧
            outcome ∈ answers (e :: after) ∧ usable outcome = .error reason := by
  have hk := knows h h₀ hn
  refine ⟨hk, ?_, fun {e c'} hd => ?_⟩
  · rw [hk.failure]
    cases (answers hs).head? with
    | none => simp
    | some outcome => simp [isSome_reason?_iff]
  · obtain ⟨l, l', o, o', -, -, hdeals⟩ := moved (known h) hd
    refine ⟨hdeals.generation_le, fun hnone => ?_, ?_⟩
    · cases hans : answer? e with
      | none =>
        have hsame := (hdeals.keeps (answer?_eq_none_iff.1 hans)).1
        exact ⟨hsame.current, hsame.earlyGeneration⟩
      | some outcome =>
        obtain ⟨k, b, hdeed⟩ := answer?_eq_some_iff.1 hans
        rw [hdeed] at hdeals
        rw [hans, Option.bind_some] at hnone
        rcases hdeals.hears with ⟨reason, -, -, hsame, -⟩ | ⟨signed, early, hu, -⟩
        · exact ⟨hsame.current, hsame.earlyGeneration⟩
        · cases (accepted?_of_usable_ok hu).symm.trans hnone
    · rintro k r b rfl
      obtain ⟨hr, rt, hrt, -, hresult⟩ := step_of_turns hd
      have hb : rt = .done b := by cases rt <;> simp_all
      rw [hb] at hrt
      obtain ⟨mark, hline⟩ := inLine h (by rw [h₀]; rfl)
      refine ⟨?_, ?_⟩
      · rintro u rfl
        exact newer_of_done hrt hline hr
      · rintro reason hs₀ rfl
        refine answered_of_done hrt hs₀ (entered h h₀ hn r hr) hk fun hphase => ?_
        exact answer?_eq_some_iff.2 ⟨_, _, deed_of_asking hphase _⟩

/-- A renewer that is always busy. -/
def busy : Setting Script.State Script.Ticket :=
  Script.renewing 4 ⟨1, 0, .ofSeconds 10, none⟩ 1 fun _ => ⟨some 0, .error (.renewal "busy")⟩

/-- Two callers, one of which asks the renewer, and the other one shares the answer. -/
theorem state_of_answers_of_two :
    ∃ hs c c' k r, Crowd.Trace (rules busy) (Crowd.empty (fresh (Script.world []))) hs c ∧
      Crowd.Does (rules busy) c (.turns k (.going r) (.done (.error (.renewal "busy")))) c' ∧
      c.world.world.resolver.completed = (answers hs).length ∧
      ∃ after e₁ before caller outcome, hs = after ++ e₁ :: before ∧ r.caller? = some caller ∧
        deed e₁ = .enters caller ∧ usable outcome = .error "busy" ∧
        outcome ∈ answers (.turns k (.going r) (.done (.error (.renewal "busy"))) :: after) := by
  have hplay : ((Crowd.empty (fresh (Script.world []))).narrate (rules busy) []
      [.join ⟨0, false⟩, .join ⟨0, false⟩, .turn 0, .turn 1, .turn 0, .turn 1, .turn 0, .turn 0,
        .turn 0]).bind (fun x => x.1.head?.bind fun e =>
          match e with
          | .turns _ (.going _) (.done b) => some b
          | _ => none) = some (.error (.renewal "busy")) := by
    decide +kernel
  obtain ⟨⟨told, c'⟩, htold, hlast⟩ := Option.bind_eq_some_iff.1 hplay
  have ht := Crowd.trace_of_narrate .nil htold
  cases ht with
  | nil => cases hlast
  | @snoc hs c _ e ht hd =>
    rw [List.head?_cons, Option.bind_some] at hlast
    split at hlast
    · rename_i k r b
      cases hlast
      obtain ⟨hknows, -, hstep⟩ := state_of_answers rfl rfl ht
      obtain ⟨-, hfailure⟩ := (hstep hd).2.2 rfl
      obtain ⟨after, e₁, before, caller, outcome, hhs, hcaller, hdeed, hmem, hu⟩ :=
        hfailure "busy" rfl rfl
      exact ⟨hs, c, c', k, r, ht, hd, hknows.completed, after, e₁, before, caller, outcome, hhs,
        hcaller, hdeed, hu, hmem⟩
    · cases hlast

end Consultation

end RemoteFile
