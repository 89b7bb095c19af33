import RemoteFile.Proofs.Crowd.Life
import RemoteFile.Proofs.Operation.Contract
import RemoteFile.Proofs.Operation.Early

/-!
# A rejected URL is left behind

Between the failure of an attempt whose URL was rejected and the next attempt of the operation, all
others may renew the URL, fail to renew it, or renew it ahead of expiry; and the URL of the next
attempt is not the one that the renewal ended with, but what the resolver has by then. What carries
over is the generation: it never decreases, a renewal that succeeds ends beyond the generation that
it was to replace, and an attempt begins at the generation that is current.

`Operation.Shared` is a course of an operation with what the others do to the resolver in between;
the life of an operation in a crowd is one.

Main statements:

* `Renewal.lt_of_done` : a renewal that succeeds ends with a later URL.
* `Operation.Shared.abreast` : what an operation knows of the URLs that it has used.
* `Operation.Shared.leavesBehind` : it never returns to a URL that was rejected.
* `Operation.rejected_urls_are_left_behind` : nor does any operation of a crowd.
-/

namespace RemoteFile

namespace Renewal

variable {σ τ : Type} {s : Setting σ τ} {r : Renewal} {w w' : World σ} {source : Source}

/-- **A renewal that succeeds ends with a later URL** than the one that it was to replace. -/
theorem lt_of_done (h : r.step s w = (.done (.ok source), w'))
    (hle : r.stale.generation ≤ w.resolver.current.generation) :
    r.stale.generation < w'.resolver.current.generation := by
  rw [← current_of_done h]
  rcases ends_of_step h with ⟨seen, ticket, -, hlearns⟩ | ⟨ticket, due, outcome, -, hdeals⟩
  · -- somebody else has renewed the URL
    cases hlearns with
    | newer hlt => exact hlt
  · rcases hdeals.hears with ⟨reason, -, herror, -⟩ | ⟨signed, early, -, hok, -⟩
    · cases herror
    · cases hok
      exact Nat.lt_succ_of_le hle

end Renewal

namespace Operation

variable {σ τ κ α β : Type}

/-- The URL of the attempt that is under way. -/
def source? (o : Operation α) : Option Source :=
  match o.phase with
  | .attempting used _ => some used
  | .choosing | .refreshing _ | .renewing _ | .resting _ => none

namespace Moment

variable (s : Setting σ τ) (work : Attempts (World σ) α β) (m : Moment σ α)

/-- The URL of the attempt that begins, if one does. -/
def used? : Option Source :=
  if m.begins s work then (m.turn s work).1.next?.bind source? else none

/-- The URL that is rejected, if the attempt that is under way fails for that, and the failure. -/
def rejected? : Option (Source × Failure) :=
  m.operation.source?.bind fun used =>
    match m.outcome? work with
    | some (.error f) => if f.retryClass = .renew then some (used, f) else none
    | some (.ok _) | none => none

end Moment

/-- The URLs of the attempts that have begun, the latest first. -/
def usedIn (s : Setting σ τ) (work : Attempts (World σ) α β) (ms : List (Moment σ α)) :
    List Source :=
  ms.filterMap fun m => m.used? s work

/-- The course of an operation that shares its resolver, and the world as the others have left it by
now: all that is known of what they do is that the URL stays the same, or that there is a later one.
-/
inductive Shared (s : Setting σ τ) (work : Attempts (World σ) α β) :
    List (Moment σ α) → Turn (Operation α) (Except Failure β) → World σ → Prop
  /-- The operation is about to begin. -/
  | nil (w : World σ) : Shared s work [] (.moved fresh) w
  /-- The others take their turns. -/
  | others {ms : List (Moment σ α)} {t : Turn (Operation α) (Except Failure β)} {w w' : World σ}
      (h : Shared s work ms t w) (hw : Advances w.resolver w'.resolver) : Shared s work ms t w'
  /-- The operation takes a turn. -/
  | snoc {ms : List (Moment σ α)} {t : Turn (Operation α) (Except Failure β)} {o : Operation α}
      {w : World σ} (h : Shared s work ms t w) (ht : t.next? = some o) :
      Shared s work (⟨o, w⟩ :: ms) (o.step s work w).1 (o.step s work w).2

variable {s : Setting σ τ} {work : Attempts (World σ) α β} {o o' : Operation α} {b : Budget}
  {phase : Phase α} {w w' : World σ} {t : Turn (Operation α) (Except Failure β)}
  {m : Moment σ α} {ms : List (Moment σ α)} {u : Source} {f : Failure}

theorem Shared.course (h : Shared s work ms t w) : Course s work ms t := by
  induction h with
  | nil w => exact .nil
  | others _ _ ih => exact ih
  | snoc _ ht ih => exact ih.snoc ht _

/-! ### The URLs that an operation uses -/

theorem source?_of_attempt? (h : o.attempt? = none) : o.source? = none := by
  obtain ⟨b, phase⟩ := o
  cases phase with
  | attempting used a => cases h
  | choosing | refreshing r | renewing r | resting due => rfl

theorem usedIn_cons (m : Moment σ α) (ms : List (Moment σ α)) :
    usedIn s work (m :: ms) = (m.used? s work).toList ++ usedIn s work ms := by
  rw [usedIn, List.filterMap_cons]
  cases m.used? s work <;> rfl

namespace Moment

theorem used?_of_next? (hturn : step s work o w = (t, w')) (ht : t.next? = some o') :
    used? s work ⟨o, w⟩ = if o.attempt?.isNone then o'.source? else none := by
  have hturn' : (⟨o, w⟩ : Moment σ α).turn s work = (t, w') := hturn
  rw [used?, begins_of_next? hturn ht, hturn', ht, Option.bind_some]
  cases ho : o.attempt? with
  | some a => rfl
  | none =>
    cases ho' : o'.attempt? with
    | some a => rfl
    | none =>
      rw [source?_of_attempt? ho']
      rfl

theorem used?_of_done (hturn : step s work o w = (t, w')) (ht : t.next? = none) :
    used? s work ⟨o, w⟩ = none := by
  have hturn' : (⟨o, w⟩ : Moment σ α).turn s work = (t, w') := hturn
  rw [used?, begins, hturn', ht, Option.bind_none, Option.isSome_none, Bool.and_false]
  rfl

/-- **An attempt begins at the generation that is current**, and not while a rejected URL is being
renewed. -/
theorem current_of_used? (hturn : step s work o w = (t, w')) (h : used? s work ⟨o, w⟩ = some u) :
    u = w'.resolver.current ∧ o.renewing? = none := by
  obtain ⟨b, phase⟩ := o
  cases hnext : t.next? with
  | none =>
    rw [used?_of_done hturn hnext] at h
    cases h
  | some o' =>
    rw [used?_of_next? hturn hnext] at h
    cases stage hturn with
    | begins hw =>
      cases hnext
      cases h
      rcases hw with rfl | rfl <;> exact ⟨rfl, rfl⟩
    | refreshed hstep =>
      cases hnext
      cases h
      have hcurrent := Renewal.current_of_done hstep
      exact ⟨hcurrent, rfl⟩
    | refreshes hstep hr ht | renews hstep hr ht =>
      cases ht.symm.trans hnext
      cases h
    | nears | renewed | rests | wakes =>
      cases hnext
      cases h
    | works | rejects | backsOff => cases h
    | stale | succeeds | breaks | exhausts | unrenewed => cases hnext

/-- **An attempt that begins is made with the URL that is used.** -/
theorem exists_of_begins (h : m.begins s work = true) :
    ∃ u, m.used? s work = some u ∧
      (m.turn s work).1.next?.bind attempt? =
        some (work.start m.operation.budget.attempts u) := by
  obtain ⟨⟨b, phase⟩, w⟩ := m
  rcases hturn : step s work ⟨b, phase⟩ w with ⟨t, w'⟩
  have hturn' : (⟨⟨b, phase⟩, w⟩ : Moment σ α).turn s work = (t, w') := hturn
  rw [begins, Bool.and_eq_true, hturn'] at h
  obtain ⟨ho, hnext⟩ := h
  rw [hturn']
  cases stage hturn with
  | begins hw | refreshed hstep => exact ⟨_, used?_of_next? hturn rfl, rfl⟩
  | refreshes hstep hr ht | renews hstep hr ht =>
    rw [ht] at hnext
    cases hnext
  | nears | stale | renewed | unrenewed | rests | wakes => cases hnext
  | works | succeeds | breaks | exhausts | rejects | backsOff => cases ho

theorem rejected?_of_attempt {used : Source} {a : α} {ta : Turn α (Except Failure β)} {w₁ : World σ}
    (h : work.step a w = (ta, w₁)) :
    rejected? work ⟨⟨b, .attempting used a⟩, w⟩ =
      match ta.result? with
      | some (.error f) => if f.retryClass = .renew then some (used, f) else none
      | some (.ok _) | none => none := by
  rw [rejected?, (outcome?_of_attempt h).1]
  rfl

theorem rejected?_of_none (h : o.attempt? = none) : rejected? work ⟨o, w⟩ = none := by
  rw [rejected?, source?_of_attempt? h]
  rfl

theorem exists_of_rejected? (h : rejected? work ⟨o, w⟩ = some (u, f)) :
    ∃ a w₁, o.phase = .attempting u a ∧ work.step a w = (.done (.error f), w₁) ∧
      f.retryClass = .renew := by
  obtain ⟨b, phase⟩ := o
  cases phase with
  | attempting used a =>
    rcases hstep : work.step a w with ⟨ta, w₁⟩
    rw [rejected?_of_attempt hstep] at h
    split at h
    · rename_i f' hf'
      split at h
      · rename_i hrenew
        cases h
        cases ta with
        | done out =>
          cases hf'
          exact ⟨a, w₁, rfl, hstep, hrenew⟩
        | moved a' | waits a' wake => cases hf'
      · cases h
    · cases h
    · cases h
  | choosing | refreshing r | renewing r | resting due => cases h

theorem rejects_of_rejected? (hturn : step s work o w = (t, w')) (ht : t.next? = some o')
    (h : rejected? work ⟨o, w⟩ = some (u, f)) : rejects s work ⟨o, w⟩ = true := by
  obtain ⟨a, w₁, hphase, ha, hf⟩ := exists_of_rejected? h
  obtain ⟨b, phase⟩ := o
  cases hphase
  rw [rejects_of_next? hturn ht]
  cases stage hturn with
  | rejects hstep hf' hb hr =>
    cases ht
    rfl
  | works hstep hta ht' =>
    cases hstep.symm.trans ha
    cases hta
  | backsOff hstep hf' hb hphase =>
    cases hstep.symm.trans ha
    rw [hf] at hf'
    cases hf'
  | succeeds | breaks | exhausts => cases ht

/-- If a rejected URL was renewed for it before, then the operation ends with the failure, and
leaves the resolver alone. -/
theorem ends_of_rejected? (hwork : ∀ a (w : World σ), w.Unrenewed (work.step a w).2)
    (hturn : step s work o w = (t, w')) (h : rejected? work ⟨o, w⟩ = some (u, f))
    (hr : o.budget.renewed = true) :
    (t = .done (.error f) ∨ t = .done (.error (.exhausted o.budget.attempts f))) ∧
      w'.resolver = w.resolver ∧ .renewerCall ∉ told s work ⟨o, w⟩ := by
  have hturn' : (⟨o, w⟩ : Moment σ α).turn s work = (t, w') := hturn
  obtain ⟨a, w₁, hphase, ha, hf⟩ := exists_of_rejected? h
  obtain ⟨b, phase⟩ := o
  cases hphase
  have hw₁ := (hwork a w).resolver
  rw [ha] at hw₁
  rw [told, hturn', (outcome?_of_attempt ha).2]
  cases stage hturn with
  | breaks hstep hd =>
    cases hstep.symm.trans ha
    refine ⟨.inl rfl, hw₁, ?_⟩
    rw [World.since_of_journal (l := []) rfl]
    exact List.not_mem_nil
  | exhausts hstep hf' hb =>
    cases hstep.symm.trans ha
    refine ⟨.inr rfl, hw₁, ?_⟩
    rw [World.since_of_journal (l := [_]) rfl]
    intro hmem
    cases List.mem_singleton.1 hmem
  | rejects hstep hf' hb hr' =>
    rw [hr] at hr'
    cases hr'
  | works hstep hta ht' =>
    cases hstep.symm.trans ha
    cases hta
  | succeeds hstep => cases hstep.symm.trans ha
  | backsOff hstep hf' hb hphase =>
    cases hstep.symm.trans ha
    rw [hf] at hf'
    cases hf'

end Moment

/-! ### What an operation knows of the URLs that it has used -/

/-- What an operation that is under way knows of the URLs that it has used. -/
structure Abreast (s : Setting σ τ) (work : Attempts (World σ) α β) (ms : List (Moment σ α))
    (o : Operation α) (w : World σ) : Prop where
  /-- It knows of the current URL what it has to. -/
  aligned : Aligned w o
  /-- An attempt that is under way is the one that has begun last. -/
  latest : ∀ u, o.source? = some u → (usedIn s work ms).head? = some u
  /-- No URL is from a later generation than the current one. -/
  used : ∀ u ∈ usedIn s work ms, u.generation ≤ w.resolver.current.generation
  /-- One that was rejected is being renewed, or there is a later one by now. -/
  rejected : ∀ m ∈ ms, ∀ u f, m.rejected? work = some (u, f) →
    u.generation ≤ w.resolver.current.generation ∧
      ((∃ r, o.renewing? = some r ∧ r.stale = u) ∨ u.generation < w.resolver.current.generation)

theorem abreast_fresh (w : World σ) : Abreast s work [] fresh w where
  aligned := trivial
  latest _ h := nomatch h
  used _ h := nomatch h
  rejected _ h := nomatch h

/-- Whatever the others do to the URL, an operation goes on knowing of those that it has used. -/
theorem Abreast.advances (h : Abreast s work ms o w) (hw : Advances w.resolver w'.resolver) :
    Abreast s work ms o w' where
  aligned := h.aligned.advances hw
  latest := h.latest
  used u hu := Nat.le_trans (h.used u hu) hw.generation_le
  rejected m hm u f hr := by
    obtain ⟨hle, hstill⟩ := h.rejected m hm u f hr
    refine ⟨Nat.le_trans hle hw.generation_le, hstill.imp_right fun hlt => ?_⟩
    exact Nat.lt_of_lt_of_le hlt hw.generation_le

theorem Abreast.proceeds (h : Abreast s work ms o w) (hw : Advances w.resolver w'.resolver)
    (ho' : Aligned w' o') (hused : (⟨o, w⟩ : Moment σ α).used? s work = none)
    (hsource : ∀ u, o'.source? = some u → o.source? = some u)
    (hrenewing : ∀ r, o.renewing? = some r → (∃ r', o'.renewing? = some r' ∧ r'.stale = r.stale) ∨
      (r.stale.generation ≤ w.resolver.current.generation →
        r.stale.generation < w'.resolver.current.generation))
    (hrejected : ∀ u f, (⟨o, w⟩ : Moment σ α).rejected? work = some (u, f) →
      o.source? = some u ∧ ∃ r, o'.renewing? = some r ∧ r.stale = u) :
    Abreast s work (⟨o, w⟩ :: ms) o' w' := by
  have hcons : usedIn s work (⟨o, w⟩ :: ms) = usedIn s work ms := by
    rw [usedIn_cons, hused, Option.toList_none, List.nil_append]
  refine ⟨ho', ?_, ?_, ?_⟩
  · intro u hu
    rw [hcons]
    exact h.latest u (hsource u hu)
  · intro u hu
    rw [hcons] at hu
    exact Nat.le_trans (h.used u hu) hw.generation_le
  · intro m hm u f hr
    rcases List.mem_cons.1 hm with rfl | hm
    · obtain ⟨hu, hgo⟩ := hrejected u f hr
      refine ⟨Nat.le_trans (h.used u ?_) hw.generation_le, .inl hgo⟩
      exact List.mem_of_mem_head? (h.latest u hu)
    · obtain ⟨hle, ⟨r, hrenews, rfl⟩ | hlt⟩ := h.rejected m hm u f hr
      · refine ⟨Nat.le_trans hle hw.generation_le, ?_⟩
        exact (hrenewing r hrenews).imp_right fun hlt => hlt hle
      · exact ⟨Nat.le_trans hle hw.generation_le, .inr (Nat.lt_of_lt_of_le hlt hw.generation_le)⟩

theorem Abreast.begins (h : Abreast s work ms o w) (hw : Advances w.resolver w'.resolver)
    (ho' : Aligned w' o') (hturn : step s work o w = (t, w')) (ht : t.next? = some o')
    (ho : o.attempt? = none) (hsource : o'.source? = some u) :
    Abreast s work (⟨o, w⟩ :: ms) o' w' := by
  have hused : (⟨o, w⟩ : Moment σ α).used? s work = some u := by
    rw [Moment.used?_of_next? hturn ht, ho, hsource]
    rfl
  obtain ⟨hcurrent, hno⟩ := Moment.current_of_used? hturn hused
  have hcons : usedIn s work (⟨o, w⟩ :: ms) = u :: usedIn s work ms := by
    rw [usedIn_cons, hused, Option.toList_some, List.singleton_append]
  refine ⟨ho', ?_, ?_, ?_⟩
  · intro u' hu'
    rw [hcons]
    exact hsource.symm.trans hu'
  · intro u' hu'
    rw [hcons] at hu'
    rcases List.mem_cons.1 hu' with rfl | hu'
    · rw [hcurrent]
    · exact Nat.le_trans (h.used u' hu') hw.generation_le
  · intro m hm u' f hr
    rcases List.mem_cons.1 hm with rfl | hm
    · rw [Moment.rejected?_of_none ho] at hr
      cases hr
    · obtain ⟨hle, ⟨r, hrenews, -⟩ | hlt⟩ := h.rejected m hm u' f hr
      · rw [hno] at hrenews
        cases hrenews
      · exact ⟨Nat.le_trans hle hw.generation_le, .inr (Nat.lt_of_lt_of_le hlt hw.generation_le)⟩

/-- **An operation goes on knowing of the URLs that it has used.** -/
theorem Abreast.turn (hwork : ∀ a (w : World σ), w.Unrenewed (work.step a w).2)
    (h : Abreast s work ms o w) (hturn : step s work o w = (t, w')) (ht : t.next? = some o') :
    Abreast s work (⟨o, w⟩ :: ms) o' w' := by
  have hresolves := resolves hwork hturn
  have hw := hresolves.advances
  rw [ht] at hresolves
  have ho' := hresolves.aligned h.aligned
  have hused := Moment.used?_of_next? hturn ht
  obtain ⟨b, phase⟩ := o
  cases stage hturn with
  | begins | refreshed =>
    cases ht
    exact h.begins hw ho' hturn rfl rfl rfl
  | nears | rests | wakes =>
    cases ht
    exact h.proceeds hw ho' hused nofun nofun nofun
  | refreshes hstep hr ht' =>
    cases ht'.symm.trans ht
    exact h.proceeds hw ho' hused nofun nofun nofun
  | works hstep ha ht' =>
    cases ht'.symm.trans ht
    refine h.proceeds hw ho' hused (fun u hu => hu) nofun fun u f hr => ?_
    rw [Moment.rejected?_of_attempt hstep, Turn.result?_of_next? ha] at hr
    cases hr
  | rejects hstep hf hb hr =>
    cases ht
    refine h.proceeds hw ho' hused nofun nofun fun u f hr => ?_
    rw [Moment.rejected?_of_attempt hstep, Turn.result?_done] at hr
    dsimp only at hr
    rw [if_pos hf] at hr
    cases hr
    exact ⟨rfl, _, rfl, rfl⟩
  | backsOff hstep hf hb hphase =>
    cases ht
    refine h.proceeds hw ho' hused ?_ nofun fun u f hr => ?_
    · rcases hphase with rfl | ⟨due, rfl⟩ <;> exact nofun
    · rw [Moment.rejected?_of_attempt hstep, Turn.result?_done] at hr
      dsimp only at hr
      rw [hf, if_neg (by decide)] at hr
      cases hr
  | renews hstep hr ht' =>
    cases ht'.symm.trans ht
    refine h.proceeds hw ho' hused nofun (fun r hr' => ?_) nofun
    cases hr'
    exact .inl ⟨_, rfl, (Renewal.same_of_next? hstep hr).1⟩
  | renewed hstep =>
    cases ht
    refine h.proceeds hw ho' hused nofun (fun r hr' => ?_) nofun
    cases hr'
    exact .inr (Renewal.lt_of_done hstep)
  | stale | succeeds | breaks | exhausts | unrenewed => cases ht

/-- What an operation that shares its resolver knows of the URLs that it has used. -/
theorem Shared.abreast (hwork : ∀ a (w : World σ), w.Unrenewed (work.step a w).2)
    (h : Shared s work ms t w) (ht : t.next? = some o) : Abreast s work ms o w := by
  induction h generalizing o with
  | nil w =>
    cases ht
    exact abreast_fresh w
  | others _ hw ih => exact (ih ht).advances hw
  | snoc _ hnext ih => exact (ih hnext).turn hwork rfl ht

/-! ### A second rejection -/

theorem Course.next_of_mem (h : Course s work ms t) (ht : t.next? = some o) (hm : m ∈ ms) :
    ∃ o', (m.turn s work).1.next? = some o' := by
  induction h generalizing o with
  | nil => cases hm
  | snoc _ hnext w ih =>
    rcases List.mem_cons.1 hm with rfl | hm
    · exact ⟨o, ht⟩
    · exact ih hnext hm

theorem Course.renewed_of_rejected? (h : Course s work ms t) (ht : t.next? = some o) (hm : m ∈ ms)
    (hr : m.rejected? work = some (u, f)) : o.budget.renewed = true := by
  obtain ⟨o', ho'⟩ := h.next_of_mem ht hm
  have hrejects : m.rejects s work = true := Moment.rejects_of_rejected? rfl ho' hr
  have hpos : 0 < rejectedIn s work ms := List.countP_pos_iff.2 ⟨m, hm, hrejects⟩
  have hcount := (h.underway ht).rejected
  cases hrenewed : o.budget.renewed with
  | true => rfl
  | false =>
    rw [hrenewed] at hcount
    exact absurd hcount (Nat.ne_of_gt hpos)

/-! ### No way back -/

/-- What an operation that has taken these turns never does, and how it ends instead. -/
structure LeavesBehind (s : Setting σ τ) (work : Attempts (World σ) α β) (ms : List (Moment σ α))
    (result : Option (Except Failure β)) : Prop where
  /-- Every attempt is made with the URL that it is said to use. -/
  made : ∀ m ∈ ms, m.begins s work = true → ∃ u, m.used? s work = some u ∧
    (m.turn s work).1.next?.bind attempt? = some (work.start m.operation.budget.attempts u)
  /-- The URL that is rejected is that of the attempt that has begun last. -/
  latest : ∀ later m earlier u f, ms = later ++ m :: earlier → m.rejected? work = some (u, f) →
    (usedIn s work earlier).head? = some u
  /-- Every attempt after that uses one of a later generation. -/
  rejected : ms.Pairwise fun later earlier => ∀ u f u', earlier.rejected? work = some (u, f) →
    later.used? s work = some u' → u.generation < u'.generation
  /-- The generations that are used never decrease. -/
  monotone : (usedIn s work ms).Pairwise fun later earlier =>
    earlier.generation ≤ later.generation
  /-- When a URL is rejected for the second time, then there was a renewal in between, and an
  attempt since then; the operation ends with that failure, and does not call the renewer for it. -/
  again : ∀ later m earlier u f, ms = later ++ m :: earlier → m.rejected? work = some (u, f) →
    (∃ m₁ ∈ earlier, (m₁.rejected? work).isSome = true) →
      RenewedFor s work earlier ∧ later = [] ∧
        (result = some (.error f) ∨
          result = some (.error (.exhausted (begunIn s work earlier) f))) ∧
        (m.turn s work).2.resolver = m.world.resolver ∧ .renewerCall ∉ m.told s work

theorem Shared.again (hwork : ∀ a (w : World σ), w.Unrenewed (work.step a w).2)
    (h : Shared s work ms t w) (ht : t.next? = some o) (hm : m ∈ ms)
    (hm' : (m.rejected? work).isSome = true)
    (hr : (⟨o, w⟩ : Moment σ α).rejected? work = some (u, f)) :
    RenewedFor s work ms ∧
      ((o.step s work w).1 = .done (.error f) ∨
        (o.step s work w).1 = .done (.error (.exhausted (begunIn s work ms) f))) ∧
      (o.step s work w).2.resolver = w.resolver ∧
      .renewerCall ∉ (⟨o, w⟩ : Moment σ α).told s work := by
  obtain ⟨x, hx⟩ := Option.isSome_iff_exists.1 hm'
  have hrenewed := h.course.renewed_of_rejected? ht hm hx
  have hu := h.course.underway ht
  obtain ⟨a, w₁, hphase, -, -⟩ := Moment.exists_of_rejected? hr
  have hattempt : o.attempt? = some a := by rw [attempt?, hphase]
  have hcount : o.budget.attempts = begunIn s work ms := by
    rw [hu.begun, hattempt, hu.attempts]
    rfl
  rw [← hcount]
  refine ⟨?_, Moment.ends_of_rejected? hwork rfl hr hrenewed⟩
  rcases hu.renewed hrenewed with hrenewing | ⟨later, m, earlier, rfl, hm, hbegun⟩
  · rw [renewing?, hphase] at hrenewing
    cases hrenewing
  · exact ⟨later, m, earlier, rfl, hm, hbegun (by rw [hattempt]; rfl)⟩

theorem Abreast.head?_of_rejected? (h : Abreast s work ms o w)
    (hr : (⟨o, w⟩ : Moment σ α).rejected? work = some (u, f)) :
    (usedIn s work ms).head? = some u := by
  obtain ⟨a, w₁, hphase, -, -⟩ := Moment.exists_of_rejected? hr
  exact h.latest u (by rw [source?, hphase])

theorem Abreast.lt_of_rejected? {u' : Source} (h : Abreast s work ms o w)
    (hturn : step s work o w = (t, w')) (hw : Advances w.resolver w'.resolver) (hm : m ∈ ms)
    (hr : m.rejected? work = some (u, f)) (hu' : (⟨o, w⟩ : Moment σ α).used? s work = some u') :
    u.generation < u'.generation := by
  obtain ⟨rfl, hno⟩ := Moment.current_of_used? hturn hu'
  obtain ⟨-, ⟨r, hrenews, -⟩ | hlt⟩ := h.rejected m hm u f hr
  · rw [hno] at hrenews
    cases hrenews
  · exact Nat.lt_of_lt_of_le hlt hw.generation_le

theorem Abreast.monotone (h : Abreast s work ms o w) (hturn : step s work o w = (t, w'))
    (hw : Advances w.resolver w'.resolver) (hms : (usedIn s work ms).Pairwise fun later earlier =>
      earlier.generation ≤ later.generation) :
    (usedIn s work (⟨o, w⟩ :: ms)).Pairwise fun later earlier =>
      earlier.generation ≤ later.generation := by
  rw [usedIn_cons]
  cases hused : (⟨o, w⟩ : Moment σ α).used? s work with
  | none => exact hms
  | some u' =>
    obtain ⟨rfl, -⟩ := Moment.current_of_used? hturn hused
    refine List.pairwise_cons.2 ⟨fun u hu => ?_, hms⟩
    exact Nat.le_trans (h.used u hu) hw.generation_le

/-- **An operation that shares its resolver never returns to a URL that was rejected.** -/
theorem Shared.leavesBehind (hwork : ∀ a (w : World σ), w.Unrenewed (work.step a w).2)
    (h : Shared s work ms t w) : LeavesBehind s work ms t.result? := by
  induction h with
  | nil w =>
    refine ⟨fun m hm => (nomatch hm), ?_, .nil, .nil, ?_⟩
    · intro later m earlier u f hms
      cases later <;> cases hms
    · intro later m earlier u f hms
      cases later <;> cases hms
  | others _ _ ih => exact ih
  | @snoc ms t o w h ht ih =>
    have habreast := h.abreast hwork ht
    have hturn : step s work o w = ((o.step s work w).1, (o.step s work w).2) := rfl
    have hadvances := (resolves hwork hturn).advances
    refine ⟨fun m _ => Moment.exists_of_begins, ?_, ?_, ?_, ?_⟩
    · intro later m earlier u f hms hr
      cases later with
      | nil =>
        cases hms
        exact habreast.head?_of_rejected? hr
      | cons m' later =>
        cases hms
        exact ih.latest later m earlier u f rfl hr
    · refine List.pairwise_cons.2 ⟨fun m hm u f u' hr hu' => ?_, ih.rejected⟩
      exact habreast.lt_of_rejected? hturn hadvances hm hr hu'
    · exact habreast.monotone hturn hadvances ih.monotone
    · intro later m earlier u f hms hr hbefore
      cases later with
      | nil =>
        cases hms
        obtain ⟨m₁, hm₁, hr₁⟩ := hbefore
        obtain ⟨hrenewed, hend, hquiet⟩ := h.again hwork ht hm₁ hr₁ hr
        refine ⟨hrenewed, rfl, ?_, hquiet⟩
        rcases hend with hend | hend <;> rw [hend]
        · exact .inl rfl
        · exact .inr rfl
      | cons m' later =>
        -- after a second rejection there would have been no further turn
        cases hms
        obtain ⟨-, -, hend, -⟩ := ih.again later m earlier u f rfl hr hbefore
        rw [Turn.result?_of_next? ht] at hend
        rcases hend with hend | hend <;> cases hend

/-! ### In a crowd -/

/-- The turns of an operation in a crowd. -/
def momentsOf (xs : List ((κ × Operation α) × World σ)) : List (Moment σ α) :=
  xs.map fun x => ⟨x.1.2, x.2⟩

variable {works : Kinds σ κ α β} {w₀ : World σ} {c : Operations σ κ α β} {k : κ}
  {xs : List ((κ × Operation α) × World σ)} {tc : Turn (κ × Operation α) (Except Failure β)}
  {hs : List (Happening κ α β)}

/-- **The life of an operation in a crowd is a course in which the others have their turns.** -/
theorem shared_of_life (hworks : works.Aloof) (h : Crowd.Lives (rules s works) k xs c tc) :
    ∃ t, Shared s (works k) (momentsOf xs) t c.world ∧ tc = t.map (k, ·) id := by
  induction h with
  | joins hd => exact ⟨_, .nil _, rfl⟩
  | waits _ hd ih =>
    obtain ⟨t, hshared, rfl⟩ := ih
    exact ⟨t, hshared.others (.of_hears (hears_of_does hworks hd)), rfl⟩
  | @turns xs c c' x tc tc' _ hnext hd ih =>
    obtain ⟨t, hshared, rfl⟩ := ih
    obtain ⟨o, ho, rfl⟩ : ∃ o, t.next? = some o ∧ (k, o) = x := by
      cases t with
      | moved o | waits o wake =>
        cases hnext
        exact ⟨o, rfl, rfl⟩
      | done b => cases hnext
    obtain ⟨t', hturn, rfl⟩ := turn_rules hd.step_of_turns
    have hmore := hshared.snoc ho
    rw [hturn] at hmore
    exact ⟨t', hmore, rfl⟩

/-- **Rejected URLs are left behind.**  Any number of operations share a resolver that nobody else
uses, whatever their attempts come to and whatever the renewer answers, and take their turns in any
order. Each of them has lived a life, and in its life it never returns to a URL that was rejected:
all attempts after that are made at a later generation. The generations that it uses never decrease;
and when a URL is rejected for the second time, after the operation has renewed it, then it ends
with that failure and does not call the renewer for it. -/
theorem rejected_urls_are_left_behind (hworks : works.Aloof)
    (h : Crowd.Trace (rules s works) (Crowd.empty w₀) hs c) :
    (∀ x ∈ c.tasks, ∃ xs t, Crowd.Lives (rules s works) x.1 xs c t ∧ t.next? = some x.2) ∧
      (∀ x ∈ c.results, ∃ xs, Crowd.Lives (rules s works) x.1 xs c (.done x.2)) ∧
      ∀ k xs t, Crowd.Lives (rules s works) k xs c t →
        LeavesBehind s (works k) (momentsOf xs) t.result? := by
  obtain ⟨htasks, hresults⟩ := h.exists_life
  refine ⟨htasks, hresults, fun k xs tc hlife => ?_⟩
  obtain ⟨t, hshared, rfl⟩ := shared_of_life hworks hlife
  have hleaves := hshared.leavesBehind (hworks.step k)
  cases t <;> exact hleaves

/-- Operations whose first two attempts are rejected, or the first one only. -/
def twiceRejected : Kinds Script.State Bool Nat Unit
  | true => .given [.error (.status 403 "https://example.com/a.bin"),
      .error (.status 401 "https://example.com/a.bin?sig=1")] ()
  | false => .given [.error (.status 403 "https://example.com/a.bin")] ()

theorem aloof_twiceRejected : twiceRejected.Aloof where
  step k a w := by cases k <;> exact .refl w
  drop k a w := by cases k <;> exact .refl w

/-- Both operations are rejected at the same URL, and one of them renews it for both. -/
def twoRejected : List (Crowd.Deed Bool) :=
  [.join true, .join false, .turn 0, .turn 1, .turn 0, .turn 1, .turn 0, .turn 1, .turn 0, .turn 0,
    .turn 1, .turn 0, .turn 1, .turn 0, .turn 0]

/-- The one ends with its second rejection, and the renewer was called once. -/
theorem rejected_urls_are_left_behind_by_two :
    ∃ hs c xs, Crowd.Trace (rules threeAttempts twiceRejected)
        (Crowd.empty (Script.world [])) hs c ∧
      c.world.resolver.calls = 1 ∧
      Crowd.Lives (rules threeAttempts twiceRejected) true xs c
        (.done (.error (.status 401 "https://example.com/a.bin?sig=1"))) ∧
      LeavesBehind threeAttempts (twiceRejected true) (momentsOf xs)
        (some (.error (.status 401 "https://example.com/a.bin?sig=1"))) := by
  have hplay : ((Crowd.narrate (rules threeAttempts twiceRejected) [] twoRejected
      (Crowd.empty (Script.world []))).map fun x => (x.2.results, x.2.world.resolver.calls)) =
        some ([(false, .ok ()),
          (true, .error (.status 401 "https://example.com/a.bin?sig=1"))], 1) := rfl
  obtain ⟨⟨hs, c⟩, hnarrate, hview⟩ := Option.map_eq_some_iff.1 hplay
  simp only [Prod.mk.injEq] at hview
  obtain ⟨hresults, hcalls⟩ := hview
  have htrace := Crowd.trace_of_narrate .nil hnarrate
  obtain ⟨-, hlives, hleaves⟩ := rejected_urls_are_left_behind aloof_twiceRejected htrace
  obtain ⟨xs, hlife⟩ := hlives (true, .error (.status 401 "https://example.com/a.bin?sig=1"))
    (by rw [hresults]; exact List.mem_cons_of_mem _ List.mem_cons_self)
  exact ⟨hs, c, xs, htrace, hcalls, hlife, hleaves _ _ _ hlife⟩

/-- On its own, an operation that is rejected twice uses two generations. -/
example :
    let ms := (alone threeAttempts (twiceRejected true) (Script.world []) 8).1
    (usedIn threeAttempts (twiceRejected true) ms).map Source.generation = [1, 0] ∧
      (ms.filterMap fun m => m.rejected? (twiceRejected true)).length = 2 := ⟨rfl, rfl⟩

end Operation

end RemoteFile
