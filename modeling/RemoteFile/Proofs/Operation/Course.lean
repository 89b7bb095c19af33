import RemoteFile.Proofs.Operation.Stage
import RemoteFile.Proofs.Operation.Turn
import RemoteFile.Proofs.World.Journal

/-!
# The course of an operation

The turns that one operation has taken since it began, each in a world of its own: nothing is
assumed of what others have done to the world between two turns, so that what holds of every course
holds of the operation among any others. What is told of a course, its attempts and their outcomes,
the decisions, the delays and the retries, is read off the turns.

An operation that is under way keeps count: the number in its budget is that of the attempt that is
next or under way, and all attempts before it have failed.

Main statements:

* `Operation.Moment.kept` : an operation waits, and counts a retry, exactly if it has decided to.
* `Operation.Course.underway` : what an operation knows of its course while it is under way.
-/

namespace RemoteFile

theorem Turn.result?_of_next? {α β : Type} {t : Turn α β} {a : α} (h : t.next? = some a) :
    t.result? = none := by
  cases t with
  | moved a' | waits a' wake => rfl
  | done b => cases h

theorem Turn.eq_done_of_next? {α β : Type} {t : Turn α β} (h : t.next? = none) :
    ∃ b, t = .done b := by
  cases t with
  | moved a | waits a wake => cases h
  | done b => exact ⟨b, rfl⟩

namespace Decision

/-- Is another attempt to be made? -/
def isRetry : Decision → Bool
  | .backoff _ | .renew => true
  | .giveUp => false

end Decision

namespace Operation

variable {σ τ α β : Type}

/-- The renewal of a rejected URL that is under way. -/
def renewing? (o : Operation α) : Option Renewal :=
  match o.phase with
  | .renewing r => some r
  | .choosing | .refreshing _ | .attempting _ _ | .resting _ => none

/-- The renewal that is under way, of a rejected URL or ahead of expiry. -/
def renewal? (o : Operation α) : Option Renewal :=
  match o.phase with
  | .refreshing r | .renewing r => some r
  | .choosing | .attempting _ _ | .resting _ => none

/-- An operation that takes a turn, and the world in which it does. -/
structure Moment (σ α : Type) where
  /-- The operation. -/
  operation : Operation α
  /-- The world. -/
  world : World σ

namespace Moment

variable (s : Setting σ τ) (work : Attempts (World σ) α β) (m : Moment σ α)

/-- What the turn comes to. -/
def turn : Outcome σ α β := m.operation.step s work m.world

/-- What it comes to for the attempt that is under way. -/
def tried : Option (Turn α (Except Failure β) × World σ) :=
  m.operation.attempt?.map fun a => work.step a m.world

/-- The outcome of the attempt, if it ends. -/
def outcome? : Option (Except Failure β) := (m.tried work).bind fun x => x.1.result?

/-- The world as the operation finds it, after the turn of its attempt. -/
def found : World σ := ((m.tried work).map Prod.snd).getD m.world

/-- What the operation has entered into the journal by itself. -/
def told : List Event := (m.turn s work).2.since (m.found work).journal.length

/-- Does an attempt begin? -/
def begins : Bool :=
  m.operation.attempt?.isNone && ((m.turn s work).1.next?.bind attempt?).isSome

/-- What is decided, if an attempt fails. -/
def decision? : Option Decision :=
  match m.outcome? work with
  | some (.error f) => some (m.operation.budget.afterFailure s.options.retry f.retryClass).1
  | some (.ok _) | none => none

/-- The delay before the next attempt, if it is decided to wait. -/
def rest? : Option Duration :=
  match m.decision? s work with
  | some (.backoff delay) => some (spreadDelay s delay (m.found work))
  | some .renew | some .giveUp | none => none

/-- How many retries are counted. -/
def retries : Nat := if (m.decision? s work).any Decision.isRetry then 1 else 0

/-- Does the renewal of a rejected URL begin? -/
def rejects : Bool :=
  m.operation.renewing?.isNone && ((m.turn s work).1.next?.bind renewing?).isSome

/-- Does the renewal of a rejected URL end with another URL? -/
def restores : Bool :=
  match m.operation.renewing? with
  | some r =>
    match (r.step s m.world).1 with
    | .done (.ok _) => true
    | .done (.error _) | .moved _ | .waits _ _ => false
  | none => false

end Moment

/-- The turns that an operation has taken since it began, the latest first, and what the latest one
has come to. -/
inductive Course (s : Setting σ τ) (work : Attempts (World σ) α β) :
    List (Moment σ α) → Turn (Operation α) (Except Failure β) → Prop
  /-- The operation is about to begin. -/
  | nil : Course s work [] (.moved fresh)
  /-- It takes one more turn, in any world. -/
  | snoc {ms : List (Moment σ α)} {t : Turn (Operation α) (Except Failure β)} {o : Operation α}
      (h : Course s work ms t) (ht : t.next? = some o) (w : World σ) :
      Course s work (⟨o, w⟩ :: ms) (o.step s work w).1

/-! ### What is told of a course -/

section

variable (s : Setting σ τ) (work : Attempts (World σ) α β)

/-- How many attempts have begun. -/
def begunIn (ms : List (Moment σ α)) : Nat := ms.countP fun m => m.begins s work

/-- The outcomes of the attempts that have ended, the latest first. -/
def outcomes (ms : List (Moment σ α)) : List (Except Failure β) :=
  ms.filterMap fun m => m.outcome? work

/-- How often the renewal of a rejected URL has begun. -/
def rejectedIn (ms : List (Moment σ α)) : Nat := ms.countP fun m => m.rejects s work

/-- What was decided after the attempts that have failed, the latest first. -/
def decisions (ms : List (Moment σ α)) : List Decision := ms.filterMap fun m => m.decision? s work

/-- The delays that were handed to the sleeper, the latest first. -/
def slept (ms : List (Moment σ α)) : List Duration :=
  ms.flatMap fun m => (Event.delays (m.told s work)).reverse

/-- How much the operation has added to the count of retries. -/
def retried : List (Moment σ α) → Int
  | [] => 0
  | m :: ms =>
    ((m.turn s work).2.counters.retries : Int) - (m.found work).counters.retries + retried ms

/-- The transient failures of attempts before the last one that is allowed, the latest first: each
by the number of the attempt, with the world as it was found after the attempt. -/
def relapses : List (Moment σ α) → List (Nat × World σ)
  | [] => []
  | m :: ms =>
    match m.outcome? work with
    | some (.error f) =>
      let number := (outcomes work ms).length + 1
      if f.retryClass = .retryable ∧ number < s.options.retry.maxAttempts then
        (number, m.found work) :: relapses ms
      else relapses ms
    | some (.ok _) | none => relapses ms

/-- The URL of this operation was renewed after it had been rejected, and an attempt has begun since
then. -/
def RenewedFor (ms : List (Moment σ α)) : Prop :=
  ∃ later m earlier, ms = later ++ m :: earlier ∧ m.restores s = true ∧ begunIn s work later ≠ 0

end

variable {s : Setting σ τ} {work : Attempts (World σ) α β} {o o' : Operation α} {b : Budget}
  {phase : Phase α} {w w₁ w' : World σ} {t : Turn (Operation α) (Except Failure β)}
  {ms : List (Moment σ α)}

namespace Moment

theorem outcome?_of_attempt {used : Source} {a : α} {ta : Turn α (Except Failure β)}
    (h : work.step a w = (ta, w₁)) :
    outcome? work ⟨⟨b, .attempting used a⟩, w⟩ = ta.result? ∧
      found work ⟨⟨b, .attempting used a⟩, w⟩ = w₁ := by
  simp only [outcome?, found, tried, attempt?, Option.map_some, h, Option.bind_some,
    Option.getD_some, and_self]

theorem outcome?_of_none (h : o.attempt? = none) :
    outcome? work ⟨o, w⟩ = none ∧ found work ⟨o, w⟩ = w := by
  simp only [outcome?, found, tried, h, Option.map_none, Option.bind_none, Option.getD_none,
    and_self]

theorem begins_of_next? (hturn : step s work o w = (t, w')) (ht : t.next? = some o') :
    begins s work ⟨o, w⟩ = (o.attempt?.isNone && o'.attempt?.isSome) := by
  have hturn' : turn s work ⟨o, w⟩ = (t, w') := hturn
  rw [begins, hturn', ht, Option.bind_some]

theorem rejects_of_next? (hturn : step s work o w = (t, w')) (ht : t.next? = some o') :
    rejects s work ⟨o, w⟩ = (o.renewing?.isNone && o'.renewing?.isSome) := by
  have hturn' : turn s work ⟨o, w⟩ = (t, w') := hturn
  rw [rejects, hturn', ht, Option.bind_some]

theorem decision?_of_error {m : Moment σ α} {f : Failure} {d : Decision} {b' : Budget}
    (h : m.outcome? work = some (.error f))
    (hd : Budget.Decided s.options.retry m.operation.budget f.retryClass d b') :
    m.decision? s work = some d := by
  rw [decision?, h]
  exact congrArg some (congrArg Prod.fst hd.eq)

theorem decision?_of_outcome? {m : Moment σ α} (h : ∀ f, m.outcome? work ≠ some (.error f)) :
    m.decision? s work = none := by
  rw [decision?]
  split
  · rename_i f hf
    exact absurd hf (h f)
  · rfl
  · rfl

/-- What an operation does by itself in a turn: it waits if it has decided to, and counts a retry if
it was decided on. -/
structure Kept (s : Setting σ τ) (work : Attempts (World σ) α β) (m : Moment σ α) : Prop where
  /-- The delay that is handed to the sleeper. -/
  delays : Event.delays (m.told s work) = (m.rest? s work).toList
  /-- The retry that is counted. -/
  retries : (m.turn s work).2.counters.retries = (m.found work).counters.retries +
    m.retries s work

theorem kept_of_quiet (hturn : step s work o w = (t, w'))
    (hout : ∀ f, outcome? work ⟨o, w⟩ ≠ some (.error f))
    (htells : (found work ⟨o, w⟩).Tells (fun e => !e.isSleep) w')
    (hretries : w'.counters.retries = (found work ⟨o, w⟩).counters.retries) :
    Kept s work ⟨o, w⟩ := by
  have hd : decision? s work ⟨o, w⟩ = none := decision?_of_outcome? hout
  have ht : turn s work ⟨o, w⟩ = (t, w') := hturn
  constructor
  · rw [told, ht, rest?, hd]
    exact Event.delays_eq_nil htells.since
  · rw [ht, retries, hd]
    exact hretries

theorem kept_of_attempt {used : Source} {a : α} {ta : Turn α (Except Failure β)}
    (hturn : step s work ⟨b, .attempting used a⟩ w = (t, w₁)) (h : work.step a w = (ta, w₁))
    (hta : ∀ f, ta.result? ≠ some (.error f)) : Kept s work ⟨⟨b, .attempting used a⟩, w⟩ := by
  obtain ⟨hout, hfound⟩ : outcome? work ⟨⟨b, .attempting used a⟩, w⟩ = ta.result? ∧
      found work ⟨⟨b, .attempting used a⟩, w⟩ = w₁ := outcome?_of_attempt h
  refine kept_of_quiet hturn ?_ (.of_eq (by rw [hfound])) (by rw [hfound])
  rwa [hout]

theorem kept_of_aside (hturn : step s work o w = (t, w')) (ho : o.attempt? = none)
    (htells : w.Tells (fun e => !e.isSleep) w')
    (hretries : w'.counters.retries = w.counters.retries) : Kept s work ⟨o, w⟩ := by
  obtain ⟨hout, hfound⟩ : outcome? work ⟨o, w⟩ = none ∧ found work ⟨o, w⟩ = w :=
    outcome?_of_none ho
  refine kept_of_quiet hturn ?_ (by rwa [hfound]) (by rwa [hfound])
  intro f hf
  rw [hout] at hf
  cases hf

theorem kept_of_renewal {r : Renewal} {rt : Turn Renewal (Except Failure Source)}
    (hturn : step s work o w = (t, w')) (ho : o.attempt? = none) (h : r.step s w = (rt, w')) :
    Kept s work ⟨o, w⟩ :=
  kept_of_aside hturn ho ((Renewal.tells_step h).mono fun _ => Event.not_isSleep_of_ofRenewal)
    (Renewal.retries_step h)

theorem kept_of_error {used : Source} {a : α} {f : Failure} {d : Decision} {b' : Budget}
    (l : List Event) (hturn : step s work ⟨b, .attempting used a⟩ w = (t, w'))
    (h : work.step a w = (.done (.error f), w₁))
    (hd : Budget.Decided s.options.retry b f.retryClass d b')
    (hjournal : w'.journal = l ++ w₁.journal)
    (hdelays : Event.delays l.reverse =
      match d with
      | .backoff delay => [spreadDelay s delay w₁]
      | .renew | .giveUp => [])
    (hretries : w'.counters.retries = w₁.counters.retries + if d.isRetry then 1 else 0) :
    Kept s work ⟨⟨b, .attempting used a⟩, w⟩ := by
  obtain ⟨hout, hfound⟩ : outcome? work ⟨⟨b, .attempting used a⟩, w⟩ = some (.error f) ∧
      found work ⟨⟨b, .attempting used a⟩, w⟩ = w₁ := outcome?_of_attempt h
  have ht : turn s work ⟨⟨b, .attempting used a⟩, w⟩ = (t, w') := hturn
  have hdecision := decision?_of_error hout hd
  constructor
  · rw [told, ht, hfound, World.since_of_journal hjournal, hdelays, rest?, hdecision, hfound]
    cases d <;> rfl
  · rw [ht, retries, hdecision, hfound]
    exact hretries

/-- **An operation waits exactly if it has decided to, and counts the retries that it has decided
on.** -/
theorem kept (m : Moment σ α) : Kept s work m := by
  obtain ⟨⟨b, phase⟩, w⟩ := m
  rcases hturn : step s work ⟨b, phase⟩ w with ⟨t, w'⟩
  cases stage hturn with
  | begins hw =>
    refine kept_of_aside hturn rfl ?_ ?_
    · rcases hw with rfl | rfl
      · exact (World.Tells.refl _ _).record rfl
      · exact ((World.Tells.refl _ _).record rfl).record rfl
    · rcases hw with rfl | rfl <;> rfl
  | nears hearly => exact kept_of_aside hturn rfl ((World.Tells.refl _ w).record rfl) rfl
  | refreshed h =>
    refine kept_of_aside hturn rfl ?_ (Renewal.retries_step h :)
    exact ((Renewal.tells_step h).mono fun _ => Event.not_isSleep_of_ofRenewal).record rfl
  | works h ha ht =>
    refine kept_of_attempt hturn h ?_
    rw [Turn.result?_of_next? ha]
    exact nofun
  | succeeds h => exact kept_of_attempt hturn h nofun
  | @breaks used a f _ h hd =>
    have hdecided : Budget.Decided s.options.retry b f.retryClass .giveUp b := by
      rcases hd with hf | ⟨hf, hb, hr⟩
      · exact .fatal hf
      · exact .again hf hb hr
    exact kept_of_error [] hturn h hdecided rfl rfl rfl
  | exhausts h hf hb => exact kept_of_error [_] hturn h (.spent hf hb) rfl rfl rfl
  | rejects h hf hb hr => exact kept_of_error [_] hturn h (.renew hf hb hr) rfl rfl rfl
  | backsOff h hf hb hphase =>
    exact kept_of_error [_, _] hturn h (.backoff hf hb) rfl rfl rfl
  | refreshes h | stale h | renews h | renewed h | unrenewed h =>
    exact kept_of_renewal hturn rfl h
  | rests h | wakes h => exact kept_of_aside hturn rfl (.refl _ w) rfl

end Moment

/-! ### What an operation knows of its course -/

/-- What an operation that is under way knows of its course. -/
structure Underway (s : Setting σ τ) (work : Attempts (World σ) α β) (ms : List (Moment σ α))
    (o : Operation α) : Prop where
  /-- All attempts that have ended have failed. -/
  errors : ∀ v, .ok v ∉ outcomes work ms
  /-- The attempts are counted, the next one included. -/
  attempts : o.budget.attempts = (outcomes work ms).length + 1
  /-- There are not too many. -/
  bound : o.budget.attempts ≤ max 1 s.options.retry.maxAttempts
  /-- All attempts that have begun have ended, but the one that is under way. -/
  begun : begunIn s work ms = (outcomes work ms).length + if o.attempt?.isSome then 1 else 0
  /-- A rejected URL is renewed once, which the operation remembers. -/
  rejected : rejectedIn s work ms = if o.budget.renewed then 1 else 0
  /-- If a rejected URL is being renewed, then the operation remembers that. -/
  renewing : o.renewing?.isSome = true → o.budget.renewed = true
  /-- If it does, then the renewal is under way, or has ended with another URL. An attempt that is
  under way has begun since then. -/
  renewed : o.budget.renewed = true → o.renewing?.isSome = true ∨
    ∃ later m earlier, ms = later ++ m :: earlier ∧ m.restores s = true ∧
      (o.attempt?.isSome = true → begunIn s work later ≠ 0)

theorem outcomes_cons (m : Moment σ α) :
    outcomes work (m :: ms) = (m.outcome? work).toList ++ outcomes work ms := by
  rw [outcomes, List.filterMap_cons]
  cases m.outcome? work <;> rfl

theorem begunIn_cons (m : Moment σ α) :
    begunIn s work (m :: ms) = begunIn s work ms + if m.begins s work then 1 else 0 :=
  List.countP_cons

theorem rejectedIn_cons (m : Moment σ α) :
    rejectedIn s work (m :: ms) = rejectedIn s work ms + if m.rejects s work then 1 else 0 :=
  List.countP_cons

theorem underway_fresh : Underway s work [] fresh where
  errors _ h := nomatch h
  attempts := rfl
  bound := Nat.le_max_left _ _
  begun := rfl
  rejected := rfl
  renewing h := nomatch h
  renewed h := nomatch h

theorem Underway.proceeds (hu : Underway s work ms o) (hturn : step s work o w = (t, w'))
    (ht : t.next? = some o') (hbudget : o'.budget = o.budget)
    (hout : (⟨o, w⟩ : Moment σ α).outcome? work = none)
    (hattempt : o.attempt?.isSome = true → o'.attempt?.isSome = true)
    (hrenewing : o'.renewing?.isSome = true → o.renewing?.isSome = true)
    (hrestores : o.renewing?.isSome = true → o'.renewing?.isSome = true ∨
      (⟨o, w⟩ : Moment σ α).restores s = true ∧ o'.attempt? = none) :
    Underway s work (⟨o, w⟩ :: ms) o' := by
  have houts : outcomes work (⟨o, w⟩ :: ms) = outcomes work ms := by
    rw [outcomes_cons, hout, Option.toList_none, List.nil_append]
  have hbegins := Moment.begins_of_next? hturn ht
  have hrejects := Moment.rejects_of_next? hturn ht
  refine ⟨?_, ?_, ?_, ?_, ?_, ?_, ?_⟩
  · rw [houts]
    exact hu.errors
  · rw [houts, hbudget]
    exact hu.attempts
  · rw [hbudget]
    exact hu.bound
  · rw [begunIn_cons, houts, hbegins, hu.begun]
    cases ho : o.attempt? with
    | none => cases o'.attempt? <;> rfl
    | some a =>
      rw [ho] at hattempt
      rw [hattempt rfl]
      rfl
  · rw [rejectedIn_cons, hbudget, hrejects, hu.rejected]
    cases ho : o'.renewing?.isSome with
    | false => simp
    | true =>
      have hsome := hrenewing ho
      rw [Option.isNone_eq_false_iff.2 hsome]
      rfl
  · intro h
    rw [hbudget]
    exact hu.renewing (hrenewing h)
  · intro h
    rw [hbudget] at h
    rcases hu.renewed h with hr | ⟨later, m, earlier, rfl, hm, hbegun⟩
    · rcases hrestores hr with hr' | ⟨hm, hnone⟩
      · exact .inl hr'
      · refine .inr ⟨[], ⟨o, w⟩, ms, rfl, hm, fun hsome => ?_⟩
        rw [hnone] at hsome
        cases hsome
    · refine .inr ⟨⟨o, w⟩ :: later, m, earlier, rfl, hm, fun hsome => ?_⟩
      -- an attempt that was under way before has begun then, any other one begins now
      rw [begunIn_cons, hbegins, hsome]
      cases ho : o.attempt? with
      | none => exact Nat.succ_ne_zero _
      | some a =>
        have hlater := hbegun (by rw [ho]; rfl)
        exact fun hzero => hlater (Nat.eq_zero_of_add_eq_zero_right hzero)

theorem Underway.fails {f : Failure} (hu : Underway s work ms o)
    (hturn : step s work o w = (t, w')) (ht : t.next? = some o')
    (hout : (⟨o, w⟩ : Moment σ α).outcome? work = some (.error f))
    (hb : o.budget.attempts < s.options.retry.maxAttempts)
    (hbudget : o'.budget.attempts = o.budget.attempts + 1)
    (ho : o.attempt?.isSome = true) (ho' : o'.attempt? = none) (hno : o.renewing? = none)
    (hrenewed : o'.budget.renewed = (o.budget.renewed || o'.renewing?.isSome))
    (honce : o.budget.renewed = true → o'.renewing? = none) :
    Underway s work (⟨o, w⟩ :: ms) o' := by
  have houts : outcomes work (⟨o, w⟩ :: ms) = .error f :: outcomes work ms := by
    rw [outcomes_cons, hout]
    rfl
  have hbegins : (⟨o, w⟩ : Moment σ α).begins s work = false := by
    rw [Moment.begins_of_next? hturn ht, ho']
    exact Bool.and_false _
  have hrejects : (⟨o, w⟩ : Moment σ α).rejects s work = o'.renewing?.isSome := by
    rw [Moment.rejects_of_next? hturn ht, hno]
    exact Bool.true_and _
  refine ⟨?_, ?_, ?_, ?_, ?_, ?_, ?_⟩
  · intro v hv
    rw [houts] at hv
    rcases List.mem_cons.1 hv with hv | hv
    · cases hv
    · exact hu.errors v hv
  · rw [houts, List.length_cons, hbudget, hu.attempts]
  · have hmax := Nat.le_max_right 1 s.options.retry.maxAttempts
    omega
  · rw [begunIn_cons, houts, hbegins, hu.begun, ho, ho']
    rfl
  · rw [rejectedIn_cons, hrejects, hu.rejected, hrenewed]
    cases hr : o.budget.renewed with
    | true =>
      rw [honce hr]
      rfl
    | false => cases o'.renewing?.isSome <;> rfl
  · intro h
    rw [hrenewed, h, Bool.or_true]
  · intro h
    rw [hrenewed, Bool.or_eq_true] at h
    rcases h with h | h
    · rcases hu.renewed h with hr | ⟨later, m, earlier, rfl, hm, -⟩
      · rw [hno] at hr
        cases hr
      · refine .inr ⟨⟨o, w⟩ :: later, m, earlier, rfl, hm, fun hsome => ?_⟩
        rw [ho'] at hsome
        cases hsome
    · exact .inl h

/-- **An operation keeps count of its attempts.** -/
theorem Underway.turn (hu : Underway s work ms o) (hturn : step s work o w = (t, w'))
    (ht : t.next? = some o') : Underway s work (⟨o, w⟩ :: ms) o' := by
  obtain ⟨b, phase⟩ := o
  cases stage hturn with
  | begins | nears | refreshed | rests | wakes =>
    cases ht
    exact hu.proceeds hturn rfl rfl (Moment.outcome?_of_none rfl).1 nofun nofun nofun
  | refreshes h hr ht' =>
    cases ht'.symm.trans ht
    exact hu.proceeds hturn ht rfl (Moment.outcome?_of_none rfl).1 nofun nofun nofun
  | works h ha ht' =>
    cases ht'.symm.trans ht
    refine hu.proceeds hturn ht rfl ?_ (fun _ => rfl) nofun nofun
    rw [(Moment.outcome?_of_attempt h).1, Turn.result?_of_next? ha]
  | rejects h hf hb hr =>
    cases ht
    refine hu.fails hturn rfl (Moment.outcome?_of_attempt h).1 hb rfl rfl rfl rfl ?_ ?_
    · exact (Bool.or_true _).symm
    · intro hrenewed
      rw [hr] at hrenewed
      cases hrenewed
  | backsOff h hf hb hphase =>
    cases ht
    rcases hphase with rfl | ⟨due, rfl⟩ <;>
      exact hu.fails hturn rfl (Moment.outcome?_of_attempt h).1 hb rfl rfl rfl rfl
        (Bool.or_false _).symm fun _ => rfl
  | renews h hr ht' =>
    cases ht'.symm.trans ht
    exact hu.proceeds hturn ht rfl (Moment.outcome?_of_none rfl).1 nofun (fun _ => rfl)
      fun _ => .inl rfl
  | renewed h =>
    cases ht
    refine hu.proceeds hturn rfl rfl (Moment.outcome?_of_none rfl).1 nofun nofun fun _ => ?_
    refine .inr ⟨?_, rfl⟩
    simp only [Moment.restores, renewing?, h]
  | stale | succeeds | breaks | exhausts | unrenewed => cases ht

theorem Course.underway (h : Course s work ms t) (ht : t.next? = some o) :
    Underway s work ms o := by
  induction h generalizing o with
  | nil =>
    cases ht
    exact underway_fresh
  | snoc _ hnext w ih => exact (ih hnext).turn rfl ht

end Operation

end RemoteFile
