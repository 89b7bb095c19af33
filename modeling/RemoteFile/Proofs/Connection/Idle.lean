import Mathlib.Data.List.Chain
import RemoteFile.Proofs.Connection.Stream

/-!
# How long a connection waits

A read on a connection waits for one chunk after the other, and each of these waits has a limit of
its own: a timer that is started when the wait begins. The limit says nothing about the read as a
whole, nor about the number of its chunks.

The times here are those of a clock that moves on only when everybody waits, and then to the next
time that somebody waits for; so a read that waits takes its next turn no later than at the time
that it asked for. What is said of a wait is said by the time at which the chunk, the failure or the
end that it waits for is there, as it follows from the delays in the response.

Main statements:

* `Body.pulls_pull` : what a pull comes to, said by when the next chunk is there.
* `Reading.Stands.turn`, `Reading.Course.stands` : what a read knows of its waits.
* `Reading.Course.ends` : how a read ends, as far as its waits are concerned.
* `Reading.exists_end` : a read comes to an end.
* `Connection.idle_limits_each_wait` : which calls give up, and what is left of the response then.
-/

namespace RemoteFile

namespace Body

/-! ### When something is there -/

/-- When the next chunk, failure or end is there, for a reader that waits for it from `now` on; none
if it never is. -/
def availableAt (now : Nat) : Body → Option Nat
  | [] | .chunk _ :: _ | .failure _ :: _ => some now
  | .pause millis :: rest => availableAt (now + millis) rest
  | .pauseUntil time :: rest => availableAt (max now time) rest
  | .silence :: _ => none

/-- The next chunk, failure or end, with what is left of the response then. -/
def next : Body → Option (Pull × Body)
  | [] => some (.ended, [])
  | .chunk bytes :: rest => some (.chunk bytes, rest)
  | .failure f :: rest => some (.failed f, rest)
  | .pause _ :: rest | .pauseUntil _ :: rest => next rest
  | .silence :: _ => none

/-- There is one wait at most before the next chunk, failure or end. -/
def Single : Body → Prop
  | p :: q :: _ => p.isWait = true → q.isWait = false
  | _ => True

/-- What is left of a response `b` that somebody has begun to wait for, where the present wait
lasts until `due`. -/
structure Suspended (now due : Nat) (b b' : Body) : Prop where
  /-- The wait is not over. -/
  lt : now < due
  /-- The same is waited for. -/
  next : b'.next = b.next
  /-- It is there at the same time, for whoever waits for it before the present wait is over. -/
  available : ∀ t ≤ due, b'.availableAt t = b.availableAt now
  /-- If no other wait follows, it stays there for whoever comes later. -/
  single : b.Single → b'.Single ∧ ∀ t, b'.availableAt t = (b.availableAt now).map (max t)

/-- What a pull comes to. -/
inductive Pulls (now deadline : Nat) (b : Body) : Pull × Body → Prop
  /-- The next chunk, failure or end. -/
  | yields {x : Pull × Body} (ha : b.availableAt now = some now) (hn : b.next = some x) :
      Pulls now deadline b x
  /-- The deadline has passed before it is there. -/
  | late {due : Nat} {b' : Body} (hle : deadline ≤ now) (h : Suspended now due b b') :
      Pulls now deadline b (.late, b')
  /-- It is not there yet. -/
  | waits {due : Nat} {b' : Body} (hlt : now < deadline) (h : Suspended now due b b') :
      Pulls now deadline b (.pending (min due deadline), b')

variable {now deadline t due : Nat} {b b' rest : Body}

theorem le_of_availableAt (h : b.availableAt now = some t) : now ≤ t := by
  induction b generalizing now with
  | nil => exact Nat.le_of_eq (Option.some.inj h)
  | cons p rest ih =>
    cases p with
    | chunk _ | failure _ => exact Nat.le_of_eq (Option.some.inj h)
    | pause millis => exact Nat.le_trans (Nat.le_add_right _ _) (ih h)
    | pauseUntil time => exact Nat.le_trans (Nat.le_max_left _ _) (ih h)
    | silence => cases h

theorem Suspended.due_le (h : Suspended now due b b') (ha : b.availableAt now = some t) : due ≤ t :=
  le_of_availableAt ((h.available due (Nat.le_refl _)).trans ha)

theorem Single.availableAt {p : Part} (h : Single (p :: rest)) (hp : p.isWait = true) (t : Nat) :
    rest.availableAt t = some t := by
  cases rest with
  | nil => rfl
  | cons q rest =>
    have hq := h hp
    cases q with
    | chunk _ | failure _ => rfl
    | pause _ | pauseUntil _ | silence => cases hq

theorem pulls_held (h : Suspended now due b b') :
    Pulls now deadline b (held now deadline due, b') := by
  unfold held
  split
  · exact .late ‹_› h
  · exact .waits (Nat.not_le.1 ‹_›) h

theorem suspended_until {time : Nat} {p : Part} (hp : p.isWait = true) (hlt : now < time)
    (hn : next (p :: rest) = rest.next)
    (ha : availableAt now (p :: rest) = rest.availableAt time) :
    Suspended now time (p :: rest) (.pauseUntil time :: rest) where
  lt := hlt
  next := hn.symm
  available t ht := by rw [availableAt, Nat.max_eq_right ht, ha]
  single hs := by
    refine ⟨?_, fun t => ?_⟩
    · cases rest with
      | nil => trivial
      | cons q rest => exact fun _ => hs hp
    · rw [ha, availableAt, hs.availableAt hp, hs.availableAt hp, Option.map_some]

theorem Suspended.skip {p : Part} (h : Suspended now due rest b') (hp : p.isWait = true)
    (hn : Body.next (p :: rest) = rest.next)
    (ha : availableAt now (p :: rest) = rest.availableAt now) :
    Suspended now due (p :: rest) b' where
  lt := h.lt
  next := h.next.trans hn.symm
  available t ht := (h.available t ht).trans ha.symm
  -- nobody waits for what follows the one wait
  single hs := absurd h.lt (Nat.not_lt.2 (h.due_le (hs.availableAt hp now)))

theorem Pulls.skip {p : Part} {x : Pull × Body} (h : Pulls now deadline rest x)
    (hp : p.isWait = true) (hn : next (p :: rest) = rest.next)
    (ha : availableAt now (p :: rest) = rest.availableAt now) :
    Pulls now deadline (p :: rest) x := by
  cases h with
  | yields ha' hn' => exact .yields (ha.trans ha') (hn.trans hn')
  | late hle h => exact .late hle (h.skip hp hn ha)
  | waits hlt h => exact .waits hlt (h.skip hp hn ha)

/-- What a pull comes to: the next chunk, failure or end if that is there; otherwise the wait goes
on, or is given up if the deadline has passed. -/
theorem pulls_pull (now deadline : Nat) (b : Body) :
    Pulls now deadline b (b.pull now deadline) := by
  fun_induction pull now deadline b with
  | case1 | case2 | case3 => exact .yields rfl rfl
  | case4 rest ih => exact ih.skip rfl rfl rfl
  | case5 millis rest hm =>
    exact pulls_held (suspended_until rfl (by omega) rfl rfl)
  | case6 time rest hle ih =>
    refine ih.skip rfl rfl ?_
    rw [availableAt, Nat.max_eq_left hle]
  | case7 time rest hlt =>
    refine pulls_held (suspended_until rfl (by omega) rfl ?_)
    rw [availableAt, Nat.max_eq_right (by omega)]
  | case8 rest =>
    have h : Suspended now (max (now + 1) deadline) (.silence :: rest) (.silence :: rest) :=
      ⟨by omega, rfl, fun _ _ => rfl, fun hs => ⟨hs, fun _ => rfl⟩⟩
    unfold held
    split
    · exact .late ‹_› h
    · have hwake : min deadline deadline = min (max (now + 1) deadline) deadline := by omega
      rw [hwake]
      exact .waits (Nat.not_le.1 ‹_›) h

theorem next_ne {p : Pull} (h : b.next = some (p, rest)) :
    p ≠ .late ∧ ∀ wake, p ≠ .pending wake := by
  fun_induction next b with
  | case1 | case2 | case3 => cases h; exact ⟨nofun, nofun⟩
  | case4 millis rest ih | case5 time rest ih => exact ih h
  | case6 => cases h

end Body

namespace Reading

variable {σ : Type} {idle : Duration} {r r' r₀ : Reading} {w w' : World σ} {ms : List (Moment σ)}
  {t : Turn Reading (Except Failure (List UInt8) × Connection)}

/-! ### Waits -/

/-- The read waits for the next chunk until the deadline. -/
def suspend (r : Reading) (deadline : Nat) (body : Body) : Reading :=
  { r with conn := { r.conn with body := body }, deadline := some deadline }

/-- What a turn comes to that pulls the next chunk. -/
def outcome (idle : Duration) (deadline : Nat) (r : Reading) :
    Pull × Body → Turn Reading (Except Failure (List UInt8) × Connection)
  | (.chunk bytes, body) =>
    .moved { r with conn := { r.conn with pending := bytes, body := body }, deadline := none }
  | (.failed f, body) => .done (.error f, { r.conn with body := body })
  | (.ended, body) =>
    .done (.error (.shortRead r.conn.stop r.conn.cursor), { r.conn with body := body })
  | (.late, body) => .done (.error (.idleTimeout idle), { r.conn with body := body })
  | (.pending wake, body) => .waits (r.suspend deadline body) (some wake)

theorem step_outcome (idle : Duration) (w : World σ) (h : r.consume.isComplete = false) :
    (r.step idle w).1 = outcome idle (r.deadline.getD (idle.timerFrom w.now)) r.consume
      (r.conn.body.pull w.now (r.deadline.getD (idle.timerFrom w.now))) := by
  simp only [step, now_noteSkip, h, Bool.false_eq_true, if_false, receive]
  change _ = outcome idle (r.consume.deadline.getD (idle.timerFrom w.now)) r.consume
    (r.consume.conn.body.pull w.now (r.consume.deadline.getD (idle.timerFrom w.now)))
  rcases r.consume.conn.body.pull w.now (r.consume.deadline.getD (idle.timerFrom w.now)) with
    ⟨pull, body⟩
  cases pull <;> rfl

theorem consume_of_pending (h : r.conn.pending = []) : r.consume = r := by
  obtain ⟨⟨id, cursor, stop, pending, body, lastUsed⟩, skip, ahead, left, copied, deadline⟩ := r
  cases h
  simp [consume, dropped, taken]

theorem consume_suspend {deadline : Nat} {body : Body} (h : r.conn.pending = []) :
    (r.suspend deadline body).consume = r.suspend deadline body := consume_of_pending h

/-- A wait for the next chunk: when it began, and what was left of the response then. -/
structure Wait where
  /-- The time. -/
  began : Nat
  /-- What was left. -/
  body : Body

/-- When the chunk is there that is waited for. -/
def Wait.due (v : Wait) : Option Nat := v.body.availableAt v.began

/-- The timer that is started when the wait begins fires before the chunk is there. -/
def Wait.TimesOut (idle : Duration) (v : Wait) : Prop :=
  ∀ t, v.due = some t → idle.timerFrom v.began < t

/-- The wait that begins with a turn: the first turn in which a read looks for the next chunk
because it needs more bytes. -/
def Moment.wait? (m : Moment σ) : Option Wait :=
  if m.reading.deadline.isNone && !m.reading.consume.isComplete then
    some ⟨m.world.now, m.reading.conn.body⟩
  else none

/-- The waits of a read, the latest first. -/
def waits (ms : List (Moment σ)) : List Wait := ms.filterMap Moment.wait?

/-- The next turn comes in time: no later than at the time that was asked for. -/
structure Follows (idle : Duration) (m m' : Moment σ) : Prop where
  /-- The clock does not go back. -/
  onward : m.world.now ≤ m'.world.now
  /-- The read does not oversleep. -/
  inTime : ∀ r wake, (m.reading.step idle m.world).1 = .waits r (some wake) → m'.world.now ≤ wake

/-- All turns come in time. -/
def Punctual (idle : Duration) (ms : List (Moment σ)) : Prop :=
  ms.IsChain fun m' m => Follows idle m m'

/-- What was waited for has come, as soon as it was there and before the timer has fired. -/
structure Met (idle : Duration) (ms : List (Moment σ)) (v : Wait) : Prop where
  /-- In one of the turns it is pulled. -/
  pulled : ∃ m ∈ ms, v.due = some m.world.now ∧ m.world.now ≤ idle.timerFrom v.began ∧
    ∃ deadline, v.body.next = some (m.reading.conn.body.pull m.world.now deadline)

theorem Met.cons {v : Wait} (h : Met idle ms v) (m : Moment σ) : Met idle (m :: ms) v where
  pulled := by
    obtain ⟨m', hm, hpulled⟩ := h.pulled
    exact ⟨m', List.mem_cons_of_mem _ hm, hpulled⟩

theorem Met.not_timesOut {v : Wait} (h : Met idle ms v) : ¬ v.TimesOut idle := fun ht => by
  obtain ⟨m, -, hdue, hle, -⟩ := h.pulled
  exact absurd (ht _ hdue) (Nat.not_lt.2 hle)

/-- A read waits at the time `now`, where `b` is left of its response: all waits but the latest one
were met. -/
structure Awaits (idle : Duration) (ms : List (Moment σ)) (v : Wait) (vs : List Wait) (b : Body)
    (now : Nat) : Prop where
  /-- The latest wait. -/
  latest : waits ms = v :: vs
  /-- The ones before. -/
  earlier : ∀ v' ∈ vs, Met idle ms v'
  /-- It has begun. -/
  began : v.began ≤ now
  /-- It is not too late. -/
  inTime : now ≤ idle.timerFrom v.began
  /-- What is waited for is there at the same time. -/
  available : b.availableAt now = v.due
  /-- It is the same. -/
  next : b.next = v.body.next
  /-- No wait is added. -/
  single : v.body.Single → b.Single

/-- How a read stands that is about to take a turn at the time `now`. -/
inductive Stands (idle : Duration) (ms : List (Moment σ)) (r : Reading) (now : Nat) : Prop
  /-- It is not waiting, and all its waits were met. -/
  | between (hd : r.deadline = none) (hmet : ∀ v ∈ waits ms, Met idle ms v)
  /-- It is waiting. -/
  | within {v : Wait} {vs : List Wait} (h : Awaits idle ms v vs r.conn.body now)
      (hd : r.deadline = some (idle.timerFrom v.began)) (hmore : r.consume.isComplete = false)

theorem Stands.awaits (h : Stands idle ms r w.now) (hmore : r.consume.isComplete = false) :
    ∃ v vs, Awaits idle (⟨r, w⟩ :: ms) v vs r.conn.body w.now ∧
      r.deadline.getD (idle.timerFrom w.now) = idle.timerFrom v.began := by
  cases h with
  | between hd hmet =>
    refine ⟨⟨w.now, r.conn.body⟩, waits ms, ⟨?_, fun v hv => (hmet v hv).cons _, Nat.le_refl _,
      idle.le_timerFrom _, rfl, rfl, id⟩, by rw [hd, Option.getD_none]⟩
    simp [waits, Moment.wait?, hd, hmore]
  | @within v vs h hd _ =>
    refine ⟨v, vs, { h with latest := ?_, earlier := fun v hv => (h.earlier v hv).cons _ },
      by rw [hd, Option.getD_some]⟩
    rw [← h.latest]
    simp [waits, Moment.wait?, hd]

theorem Awaits.met {v : Wait} {vs : List Wait} {b : Body} {m : Moment σ} {x : Pull × Body}
    {deadline : Nat} (h : Awaits idle (m :: ms) v vs b m.world.now)
    (hx : m.reading.conn.body.pull m.world.now deadline = x)
    (ha : b.availableAt m.world.now = some m.world.now) (hn : b.next = some x) :
    ∀ v' ∈ waits (m :: ms), Met idle (m :: ms) v' := by
  rw [h.latest]
  intro v' hv'
  rcases List.mem_cons.1 hv' with rfl | hv'
  · exact ⟨m, List.mem_cons_self, h.available.symm.trans ha, h.inTime, deadline,
      by rw [hx, ← hn, h.next]⟩
  · exact h.earlier v' hv'

/-- A turn that goes on, and in time, leaves the read standing as it should. -/
theorem Stands.turn (h : Stands idle ms r w.now) (ht : (r.step idle w).1.next? = some r')
    (hfollows : Follows idle ⟨r, w⟩ ⟨r', w'⟩) : Stands idle (⟨r, w⟩ :: ms) r' w'.now := by
  cases hmore : r.consume.isComplete with
  | true =>
    rw [step_of_isComplete idle w hmore] at ht
    cases ht
  | false =>
    obtain ⟨v, vs, hawaits, hdeadline⟩ := h.awaits hmore
    have hstep := step_outcome idle w hmore
    rw [hdeadline] at hstep
    have hpulls := Body.pulls_pull w.now (idle.timerFrom v.began) r.conn.body
    generalize hx : r.conn.body.pull w.now (idle.timerFrom v.began) = x at hstep hpulls
    rw [hstep] at ht
    cases hpulls with
    | yields ha hn =>
      obtain ⟨p, body⟩ := x
      have hne := Body.next_ne hn
      cases p with
      | chunk bytes =>
        cases ht
        exact .between rfl (hawaits.met hx ha hn)
      | failed | ended | late => cases ht
      | pending wake => exact absurd rfl (hne.2 wake)
    | late => cases ht
    | @waits due b' hlt hs =>
      cases ht
      have hwake := hfollows.inTime _ _ hstep
      have honward := hfollows.onward
      have hp := pending_of_not_isComplete hmore
      refine .within ⟨hawaits.latest, hawaits.earlier, Nat.le_trans hawaits.began honward,
        Nat.le_trans hwake (Nat.min_le_right _ _), ?_, hs.next.trans hawaits.next,
        fun hv => (hs.single (hawaits.single hv)).1⟩ rfl ?_
      · exact (hs.available _ (Nat.le_trans hwake (Nat.min_le_left _ _))).trans hawaits.available
      · rw [consume_suspend hp]
        exact hmore

/-- What a read knows of its waits as long as it is under way. -/
theorem Course.stands (h : Course idle r₀ ms t) (hr₀ : r₀.deadline = none)
    (hpunctual : Punctual idle ms) (ht : t.next? = some r)
    (hnext : ∀ m ∈ ms.head?, Follows idle m ⟨r, w⟩) : Stands idle ms r w.now := by
  induction h generalizing r w with
  | nil =>
    cases ht
    exact .between hr₀ fun v hv => absurd hv List.not_mem_nil
  | @snoc ms t r₁ h hr₁ w₁ ih =>
    rw [Punctual, List.isChain_cons] at hpunctual
    exact (ih hpunctual.2 hr₁ hpunctual.1).turn ht (hnext _ rfl)

theorem Course.leaves (h : Course idle r₀ ms t) (ht : t.next? = some r) :
    r₀.conn.body.Leaves r.conn.body := by
  induction h generalizing r with
  | nil =>
    cases ht
    exact .refl _
  | @snoc ms t r₁ h hr₁ w ih =>
    refine (ih hr₁).trans ?_
    have hgoes := step_goes idle r₁ w
    generalize (r₁.step idle w).1 = t at hgoes ht
    cases hgoes with
    | complete | broken | ended | late => cases ht
    | @arrived deadline bytes body _ hb =>
      cases ht
      have hleft := Body.leaves_pull w.now deadline r₁.conn.body
      rwa [show r₁.conn.body.pull w.now deadline = _ from hb] at hleft
    | @waits deadline wake body hb =>
      cases ht
      have hleft := Body.leaves_pull w.now deadline r₁.conn.body
      rwa [show r₁.conn.body.pull w.now deadline = _ from hb] at hleft

/-- How a read ends, as far as its waits are concerned. -/
inductive Ends (idle : Duration) (r₀ : Reading) (ms : List (Moment σ))
    (b : Except Failure (List UInt8)) (c' : Connection) : Prop
  /-- All its waits were met. -/
  | met (hmet : ∀ v ∈ waits ms, Met idle ms v)
      (hb : b = .error (.idleTimeout idle) → r₀.conn.body.Breaks (.idleTimeout idle))
  /-- The last one has timed out. -/
  | timedOut {v : Wait} {vs : List Wait} {due : Nat} (hlatest : waits ms = v :: vs)
      (hearlier : ∀ v' ∈ vs, Met idle ms v') (hv : v.TimesOut idle)
      (hb : b = .error (.idleTimeout idle)) (hdue : idle.timerFrom v.began < due)
      (hrest : Body.Suspended v.began due v.body c'.body)

/-- How a read ends all of whose turns come in time. -/
theorem Course.ends {b : Except Failure (List UInt8)} {c' : Connection}
    (h : Course idle r₀ ms (.done (b, c'))) (hr₀ : r₀.deadline = none)
    (hpunctual : Punctual idle ms) : Ends idle r₀ ms b c' := by
  generalize hturn : Turn.done (b, c') = t at h
  cases h with
  | nil => cases hturn
  | @snoc ms t r h hr w =>
    rw [Punctual, List.isChain_cons] at hpunctual
    have hstands := h.stands hr₀ hpunctual.2 hr hpunctual.1
    cases hmore : r.consume.isComplete with
    | true =>
      rw [step_of_isComplete idle w hmore] at hturn
      cases hturn
      cases hstands with
      | between hd hmet =>
        refine .met (fun v hv => (hmet v ?_).cons _) nofun
        simpa [waits, Moment.wait?, hmore] using hv
      | within _ _ hmore' => exact absurd (hmore.symm.trans hmore') nofun
    | false =>
      obtain ⟨v, vs, hawaits, hdeadline⟩ := hstands.awaits hmore
      have hstep := step_outcome idle w hmore
      rw [hdeadline] at hstep
      have hpulls := Body.pulls_pull w.now (idle.timerFrom v.began) r.conn.body
      generalize hx : r.conn.body.pull w.now (idle.timerFrom v.began) = x at hstep hpulls
      rw [hstep] at hturn
      cases hpulls with
      | yields ha hn =>
        refine .met (hawaits.met hx ha hn) fun hb => ?_
        obtain ⟨p, body⟩ := x
        have hne := Body.next_ne hn
        cases p with
        | chunk bytes => cases hturn
        | failed f =>
          cases hturn
          cases hb
          exact (h.leaves hr).breaks _ (Body.breaks_of_pull (congrArg Prod.fst hx))
        | ended =>
          cases hturn
          cases hb
        | late => exact absurd rfl hne.1
        | pending wake => exact absurd rfl (hne.2 wake)
      | @late due b' hle hs =>
        cases hturn
        have hnow : w.now = idle.timerFrom v.began := Nat.le_antisymm hawaits.inTime hle
        refine .timedOut hawaits.latest hawaits.earlier (fun t ht => ?_) rfl (hnow ▸ hs.lt)
          ⟨Nat.lt_of_le_of_lt hawaits.began hs.lt, hs.next.trans hawaits.next,
            fun t ht => (hs.available t ht).trans hawaits.available, fun hv => ?_⟩
        · have hle := hs.due_le (hawaits.available.trans ht)
          have hlt := hs.lt
          omega
        · obtain ⟨hsingle, havailable⟩ := hs.single (hawaits.single hv)
          exact ⟨hsingle, fun t => by rw [havailable, hawaits.available]; rfl⟩
      | waits => cases hturn

/-- The first turn of a read is where it begins; if all bytes are there already, it is the last
one. -/
theorem Course.first_turn (h : Course idle r₀ ms t) :
    ms = [] ∨ ∃ (w : World σ) (ms' : List (Moment σ)), ms = ms' ++ [⟨r₀, w⟩] ∧
      (r₀.consume.isComplete = true → ms' = []) := by
  induction h with
  | nil => exact .inl rfl
  | @snoc ms t r h hr w ih =>
    rcases ih with rfl | ⟨w₀, ms', rfl, hcomplete⟩
    · cases h
      cases hr
      exact .inr ⟨w, [], rfl, fun _ => rfl⟩
    · refine .inr ⟨w₀, ⟨r, w⟩ :: ms', rfl, fun hc => ?_⟩
      obtain rfl := hcomplete hc
      cases h
      rw [step_of_isComplete idle w₀ hc] at hr
      cases hr

theorem Course.first_wait (h : Course idle r₀ ms t) (hr₀ : r₀.deadline = none) {v : Wait}
    (hv : (waits ms).getLast? = some v) : v.body = r₀.conn.body := by
  rcases h.first_turn with rfl | ⟨w₀, ms', rfl, hcomplete⟩
  · cases hv
  · rw [waits, List.filterMap_append] at hv
    cases hmore : r₀.consume.isComplete with
    | true =>
      rw [hcomplete hmore] at hv
      simp [Moment.wait?, hmore] at hv
    | false =>
      simp only [List.filterMap_cons, List.filterMap_nil, Moment.wait?, hr₀, hmore,
        Option.isNone_none, Bool.not_false, Bool.and_self, if_true, List.getLast?_concat] at hv
      cases hv
      rfl

/-! ### Ends -/

/-- A read can come to an end after the given turns, the next ones coming in time. -/
def CanEnd (idle : Duration) (r₀ : Reading) (ms : List (Moment σ)) : Prop :=
  ∃ ms' b c', Course idle r₀ (ms' ++ ms) (.done (b, c')) ∧ Punctual idle (ms' ++ ms)

/-- A read has pulled in its latest turn, and this is what came of it. -/
structure HasPulled (idle : Duration) (r₀ : Reading) (m : Moment σ) (ms : List (Moment σ))
    (deadline : Nat) (r : Reading) (x : Pull × Body) : Prop where
  /-- The turns. -/
  course : Course idle r₀ (m :: ms) (outcome idle deadline r x)
  /-- The latest one. -/
  turn : (m.reading.step idle m.world).1 = outcome idle deadline r x
  /-- They came in time. -/
  punctual : Punctual idle (m :: ms)
  /-- No bytes are left to be used up. -/
  pending : r.conn.pending = []
  /-- More are needed. -/
  more : r.isComplete = false

variable {m : Moment σ} {deadline wake : Nat} {body rest : Body} {bytes : List UInt8}
  {x : Pull × Body}

theorem CanEnd.of_cons (h : CanEnd idle r₀ (m :: ms)) : CanEnd idle r₀ ms := by
  obtain ⟨ms', b, c', hcourse, hpunctual⟩ := h
  exact ⟨ms' ++ [m], b, c', by simpa using hcourse, by simpa using hpunctual⟩

theorem canEnd_of_done {b : Except Failure (List UInt8)} {c' : Connection}
    (h : Course idle r₀ ms (.done (b, c'))) (hpunctual : Punctual idle ms) :
    CanEnd idle r₀ ms := ⟨[], b, c', h, hpunctual⟩

theorem HasPulled.late (h : HasPulled idle r₀ m ms deadline r (.late, body)) :
    CanEnd idle r₀ (m :: ms) := canEnd_of_done h.course h.punctual

theorem HasPulled.again (h : HasPulled idle r₀ m ms deadline r (.pending wake, body))
    (hwake : m.world.now ≤ wake) :
    HasPulled idle r₀ ⟨r.suspend deadline body, { m.world with now := wake }⟩ (m :: ms) deadline
      (r.suspend deadline body) (body.pull wake deadline) := by
  have hmore : (r.suspend deadline body).consume.isComplete = false := by
    rw [consume_suspend h.pending]
    exact h.more
  have hcourse := h.course.snoc rfl { m.world with now := wake }
  rw [step_outcome idle _ hmore, consume_suspend h.pending] at hcourse
  refine ⟨hcourse, ?_, ?_, h.pending, h.more⟩
  · rw [step_outcome idle _ hmore, consume_suspend h.pending]
    rfl
  · refine List.isChain_cons.2 ⟨fun m' hm' => ?_, h.punctual⟩
    cases hm'
    refine ⟨hwake, fun r' wake' hr' => ?_⟩
    rw [h.turn] at hr'
    cases hr'
    exact Nat.le_refl _

theorem HasPulled.arrived (h : HasPulled idle r₀ m ms deadline r (.chunk bytes, rest))
    (hrest : ∀ (m' : Moment σ) (deadline' : Nat) (r' : Reading),
      HasPulled idle r₀ m' (m :: ms) deadline' r' (rest.pull m'.world.now deadline') →
      CanEnd idle r₀ (m' :: m :: ms)) : CanEnd idle r₀ (m :: ms) := by
  have hcourse := h.course.snoc rfl m.world
  generalize hr' : ({ r with
      conn := { r.conn with pending := bytes, body := rest }, deadline := none } : Reading) = r'
    at hcourse
  have hpunctual : Punctual idle (⟨r', m.world⟩ :: m :: ms) := by
    refine List.isChain_cons.2 ⟨fun m' hm' => ?_, h.punctual⟩
    cases hm'
    refine ⟨Nat.le_refl _, fun r'' wake hr'' => ?_⟩
    rw [h.turn] at hr''
    cases hr''
  suffices h : CanEnd idle r₀ (⟨r', m.world⟩ :: m :: ms) from h.of_cons
  cases hmore : r'.consume.isComplete with
  | true =>
    rw [step_of_isComplete idle m.world hmore] at hcourse
    exact canEnd_of_done hcourse hpunctual
  | false =>
    have hturn := step_outcome idle m.world hmore
    have hbody : r'.conn.body = rest := by rw [← hr']
    rw [hbody] at hturn
    rw [hturn] at hcourse
    exact hrest _ _ _ ⟨hcourse, hturn, hpunctual, pending_of_not_isComplete hmore, hmore⟩

theorem HasPulled.until {time : Nat}
    (h : HasPulled idle r₀ m ms deadline r
      (Body.pull m.world.now deadline (.pauseUntil time :: rest)))
    (hrest : ∀ (m' : Moment σ) (ms' : List (Moment σ)) (r' : Reading),
      HasPulled idle r₀ m' ms' deadline r' (rest.pull m'.world.now deadline) →
      CanEnd idle r₀ (m' :: ms')) : CanEnd idle r₀ (m :: ms) := by
  rw [Body.pull] at h
  split at h
  · exact hrest m ms r h
  · rename_i hlater
    rw [Body.held] at h
    split at h
    · exact h.late
    · rename_i hlt
      have hagain := h.again (by omega)
      rw [Body.pull] at hagain
      split at hagain
      · exact (hrest _ _ _ hagain).of_cons
      · -- the deadline comes first
        rw [Body.held, if_pos (by omega)] at hagain
        exact hagain.late.of_cons

/-- A read comes to an end, whatever its response makes it wait for. -/
theorem HasPulled.canEnd (h : HasPulled idle r₀ m ms deadline r (body.pull m.world.now deadline)) :
    CanEnd idle r₀ (m :: ms) := by
  induction body generalizing m ms deadline r with
  | nil => exact canEnd_of_done h.course h.punctual
  | cons p rest ih =>
    cases p with
    | chunk bytes => exact h.arrived fun m' deadline' r' h' => ih h'
    | failure f => exact canEnd_of_done h.course h.punctual
    | pause millis =>
      rw [Body.pull] at h
      split at h
      · exact ih h
      · rw [Body.held] at h
        split at h
        · exact h.late
        · exact ((h.again (by omega)).until fun m' ms' r' h' => ih h').of_cons
    | pauseUntil time => exact h.until fun m' ms' r' h' => ih h'
    | silence =>
      rw [Body.pull, Body.held] at h
      split at h
      · exact h.late
      · have hagain := h.again (by omega)
        rw [Body.pull, Body.held, if_pos (by omega)] at hagain
        exact hagain.late.of_cons

/-- A read comes to an end if it takes its turns in time, the first one in the given world. -/
theorem exists_end (idle : Duration) (r₀ : Reading) (w : World σ) : CanEnd idle r₀ [⟨r₀, w⟩] := by
  have hcourse : Course idle r₀ [⟨r₀, w⟩] (r₀.step idle w).1 := Course.nil.snoc rfl w
  cases hmore : r₀.consume.isComplete with
  | true =>
    rw [step_of_isComplete idle w hmore] at hcourse
    exact canEnd_of_done hcourse (List.isChain_singleton _)
  | false =>
    have hturn := step_outcome idle w hmore
    rw [hturn] at hcourse
    exact HasPulled.canEnd ⟨hcourse, hturn, List.isChain_singleton _,
      pending_of_not_isComplete hmore, hmore⟩

end Reading

/-! ### Calls -/

namespace Connection

variable {σ : Type} {idle : Duration} {start stop offset len : Nat} {c c' : Connection}
  {ms : List (Reading.Moment σ)} {b : Except Failure (List UInt8)}

/-- A wait `v'` of a later call goes on with what the wait `v` was given up for. -/
structure GoesOnWith (idle : Duration) (v v' : Reading.Wait) : Prop where
  /-- It waits for the same. -/
  next : v'.body.next = v.body.next
  /-- That is there when it would have been, unless it is there already. -/
  due : v.body.Single → v'.due = v.due.map (max v'.began)
  /-- Even if other waits follow, it is there at that time for a wait that begins before the one is
  over that was given up. -/
  early : ∃ due, idle.timerFrom v.began < due ∧ (v'.began ≤ due → v'.due = v.due)

/-- What a call makes of its limit that found the connection like `c` and left it like `c'`. -/
structure KeepsLimit (idle : Duration) (c : Connection) (ms : List (Reading.Moment σ))
    (b : Except Failure (List UInt8)) (c' : Connection) : Prop where
  /-- A call gives up if one of its waits times out. -/
  givesUp : (∃ v ∈ Reading.waits ms, v.TimesOut idle) → b = .error (.idleTimeout idle)
  /-- It does so for no other reason, unless the response itself breaks off with that failure. -/
  onlyThen : b = .error (.idleTimeout idle) →
    (∃ v ∈ Reading.waits ms, v.TimesOut idle) ∨ c.body.Breaks (.idleTimeout idle)
  /-- A wait that does not time out gets what it waits for, as soon as it is there. -/
  delivers : ∀ v ∈ Reading.waits ms, ¬ v.TimesOut idle → Reading.Met idle ms v
  /-- What a wait was given up for is what the next call waits for first. -/
  resumes : ∀ v ∈ Reading.waits ms, v.TimesOut idle →
    ∀ {idle' : Duration} {offset' len' : Nat} {ms' : List (Reading.Moment σ)}
      {b' : Except Failure (List UInt8)} {c'' : Connection},
      Calls idle' offset' len' c' ms' b' c'' →
      ∀ v', (Reading.waits ms').getLast? = some v' → GoesOnWith idle v v'

theorem Calls.first_wait (h : Calls idle offset len c ms b c') {v : Reading.Wait}
    (hv : (Reading.waits ms).getLast? = some v) : v.body = c.body := by
  cases h with
  | refused => cases hv
  | ends h hr =>
    obtain ⟨-, -, rfl⟩ := Reading.start_eq_ok_iff.1 h
    exact hr.first_wait rfl hv

theorem keepsLimit_of_ends {r : Reading} (h : Reading.Ends idle r ms b c') :
    KeepsLimit idle r.conn ms b c' where
  givesUp := by
    rintro ⟨v, hv, ht⟩
    cases h with
    | met hmet => exact absurd ht (hmet v hv).not_timesOut
    | timedOut _ _ _ hb => exact hb
  onlyThen hb := by
    cases h with
    | met _ hbreaks => exact .inr (hbreaks hb)
    | @timedOut v vs _ hlatest _ hv => exact .inl ⟨v, hlatest ▸ List.mem_cons_self, hv⟩
  delivers v hv ht := by
    cases h with
    | met hmet => exact hmet v hv
    | timedOut hlatest hearlier hv' =>
      rw [hlatest] at hv
      rcases List.mem_cons.1 hv with rfl | hv
      · exact absurd hv' ht
      · exact hearlier v hv
  resumes v hv ht := by
    intro idle' offset' len' ms' b' c'' hcall v' hv'
    cases h with
    | met hmet => exact absurd ht (hmet v hv).not_timesOut
    | @timedOut v₀ vs due hlatest hearlier _ _ hdue hrest =>
      have hbody := hcall.first_wait hv'
      rw [hlatest] at hv
      rcases List.mem_cons.1 hv with rfl | hv
      · rw [← hbody] at hrest
        exact ⟨hrest.next, fun hs => (hrest.single hs).2 _, due, hdue, hrest.available _⟩
      · exact absurd ht (hearlier v hv).not_timesOut

theorem Calls.keepsLimit (h : Calls idle offset len c ms b c')
    (hpunctual : Reading.Punctual idle ms) : KeepsLimit idle c ms b c' := by
  cases h with
  | @refused f h =>
    refine ⟨nofun, fun hb => ?_, nofun, nofun⟩
    cases hb
    simp only [Reading.start] at h
    split at h <;> cases h
  | ends h hr =>
    obtain ⟨-, -, rfl⟩ := Reading.start_eq_ok_iff.1 h
    exact keepsLimit_of_ends (hr.ends rfl hpunctual)

theorem exists_calls (idle : Duration) (offset len : Nat) (c : Connection) (w : World σ) :
    ∃ ms b c', Calls idle offset len c ms b c' ∧ Reading.Punctual idle ms ∧
      ∀ m ∈ ms.getLast?, m.world = w := by
  cases hs : Reading.start c offset len with
  | error f => exact ⟨[], _, _, .refused hs, List.isChain_nil, nofun⟩
  | ok r =>
    obtain ⟨ms', b, c', hcourse, hpunctual⟩ := Reading.exists_end idle r w
    refine ⟨_, b, c', .ends hs hcourse, hpunctual, fun m hm => ?_⟩
    rw [List.getLast?_concat] at hm
    cases hm
    rfl

/-- **The limit is one for each wait.** Let any calls have been made to a connection, and let the
turns of the next one come in time. It gives up if and only if it makes a wait whose timer, started
when the wait began, fires before the chunk, the failure or the end that it waits for is there,
unless the response itself breaks off with that failure. Whatever is there in time, even at the same
time as the timer fires, is taken as soon as it is there. A wait that times out takes nothing away:
the connection still keeps track of its response, what was waited for is there for a later call when
it would have been, and a later call that succeeds gets the bytes at its position. There always is a
next call of this kind, and it comes to an end. -/
theorem idle_limits_each_wait {id now : Nat} {body : Body} (h : start ≤ stop)
    (hlimit : stop < positionLimit) (hc : Later σ (opened id start stop body now) c) :
    (∀ (idle : Duration) (offset len : Nat) (ms : List (Reading.Moment σ))
        (b : Except Failure (List UInt8)) (c' : Connection), Calls idle offset len c ms b c' →
        Reading.Punctual idle ms →
        KeepsLimit idle c ms b c' ∧ c'.Tracks start stop body.payload ∧
          ∀ (idle' : Duration) (offset' len' : Nat) (ms' : List (Reading.Moment σ))
            (bytes : List UInt8) (c'' : Connection),
            Calls idle' offset' len' c' ms' (.ok bytes) c'' →
            bytes.length = min len' (stop - offset') ∧
              bytes <+: body.payload.drop (offset' - start)) ∧
      ∀ (idle : Duration) (offset len : Nat) (w : World σ),
        ∃ ms b c', Calls idle offset len c ms b c' ∧ Reading.Punctual idle ms ∧
          ∀ m ∈ ms.getLast?, m.world = w := by
  refine ⟨fun idle offset len ms b c' hcall hpunctual => ⟨hcall.keepsLimit hpunctual, ?_, ?_⟩,
    fun idle offset len w => exists_calls idle offset len c w⟩
  · exact (hc.called hcall).tracks (.opened id body now h) hlimit
  · intro idle' offset' len' ms' bytes c'' hcall'
    have htracks := (hc.called hcall).tracks (.opened id body now h) hlimit
    by_cases hout : offset' < c'.cursor ∨ c'.stop ≤ offset'
    · exact absurd (hcall'.refuses hout).2.1 nofun
    · rw [not_or, Nat.not_lt, Nat.not_le, htracks.fixed] at hout
      obtain ⟨hlength, hbytes, -⟩ :=
        (hcall'.serves htracks hout.1 hout.2 hlimit).2.succeeds bytes rfl
      exact ⟨hlength, hbytes⟩

/-- A response of three bytes, of which two come a second and a half after they are first waited
for. -/
def delayed : Body := [.chunk [1], .pause 1500, .chunk [2, 3]]

/-- A call that has copied a byte and waits for the next one, until a second is over. -/
def impatient : Reading :=
  ⟨⟨1, 11, 13, [], [.pauseUntil 1500, .chunk [2, 3]], 0⟩, 0, 0, 2, [[1]], some 1000⟩

/-- The connection after that call, which has given up. -/
def givenUp : Connection := ⟨1, 11, 13, [], [.pauseUntil 1500, .chunk [2, 3]], 0⟩

/-- The connection after another call, which has copied the two bytes that follow. -/
def resumed : Connection := ⟨1, 13, 13, [], [], 1500⟩

theorem calls_givenUp :
    ∃ ms : List (Reading.Moment Unit),
      Calls (.ofSeconds 1) 10 3 (opened 1 10 13 delayed 0) ms
        (.error (.idleTimeout (.ofSeconds 1))) givenUp ∧
      Reading.Punctual (.ofSeconds 1) ms := by
  have hwaits : (alone (.ofSeconds 1) (.begun (opened 1 10 13 delayed 0) 10 3) quiet 2).2.1 =
    .waits impatient (some 1000) := by decide +kernel
  have hcourse := (course_alone (.ofSeconds 1) (.begun (opened 1 10 13 delayed 0) 10 3) quiet
    2).snoc (by rw [hwaits]; rfl) { quiet with now := 1000 }
  have hgivesUp : (impatient.step (.ofSeconds 1) { quiet with now := 1000 }).1 =
    .done (.error (.idleTimeout (.ofSeconds 1)), givenUp) := by decide +kernel
  rw [hgivesUp] at hcourse
  refine ⟨_, .ends rfl hcourse,
    List.isChain_cons_cons.2 ⟨⟨Nat.zero_le _, fun r wake h => ?_⟩, ?_⟩⟩
  · -- the call has asked for the time at which it gives up
    obtain ⟨-, hwake⟩ := Turn.waits.inj (hwaits.symm.trans h)
    cases hwake
    exact Nat.le_refl _
  · -- in the turn before the first byte came, and no time was asked for
    exact List.isChain_cons_cons.2
      ⟨⟨Nat.le_refl _, fun r wake h => by cases h⟩, List.isChain_singleton _⟩

theorem calls_resumed :
    ∃ ms : List (Reading.Moment Unit),
      Calls (.ofSeconds 1) 11 2 givenUp ms (.ok [2, 3]) resumed ∧
      (Reading.waits ms).getLast? = some ⟨1500, givenUp.body⟩ := by
  have hcourse := course_alone (.ofSeconds 1) (.begun givenUp 11 2) { quiet with now := 1500 } 2
  have hcopies : (alone (.ofSeconds 1) (.begun givenUp 11 2) { quiet with now := 1500 } 2).2.1 =
    .done (.ok [2, 3], resumed) := rfl
  rw [hcopies] at hcourse
  exact ⟨_, .ends rfl hcourse, rfl⟩

/-- A call that waits for a second and no longer gives up, and what it has waited for is what
another call waits for, half a second later. -/
theorem idle_limits_each_wait_after_giving_up :
    Later Unit (opened 1 10 13 delayed 0) (opened 1 10 13 delayed 0) ∧
      ∃ ms : List (Reading.Moment Unit),
        Calls (.ofSeconds 1) 10 3 (opened 1 10 13 delayed 0) ms
          (.error (.idleTimeout (.ofSeconds 1))) givenUp ∧
        ∃ v ∈ Reading.waits ms, v.TimesOut (.ofSeconds 1) ∧
          ∃ ms' : List (Reading.Moment Unit),
            Calls (.ofSeconds 1) 11 2 givenUp ms' (.ok [2, 3]) resumed ∧
            [2, 3] <+: delayed.payload.drop (11 - 10) ∧
            GoesOnWith (.ofSeconds 1) v ⟨1500, givenUp.body⟩ := by
  obtain ⟨ms, hcall, hpunctual⟩ := calls_givenUp
  obtain ⟨ms', hcall', hfirst⟩ := calls_resumed
  obtain ⟨hlimit, -, hserves⟩ := (idle_limits_each_wait (by decide) (by decide)
    (.here (σ := Unit))).1 _ _ _ _ _ _ hcall hpunctual
  have hbreaks : ¬ (opened 1 10 13 delayed 0).body.Breaks (.idleTimeout (.ofSeconds 1)) := by
    simp [Body.Breaks, opened, delayed]
  obtain ⟨v, hv, hlate⟩ := (hlimit.onlyThen rfl).resolve_right hbreaks
  exact ⟨.here, ms, hcall, v, hv, hlate, ms', hcall', (hserves _ _ _ _ _ _ hcall').2,
    hlimit.resumes v hv hlate hcall' _ hfirst⟩

end Connection

end RemoteFile
