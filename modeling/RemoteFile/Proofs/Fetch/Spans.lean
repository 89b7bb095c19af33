import RemoteFile.Proofs.Connection.Account
import RemoteFile.Proofs.Connection.Span
import RemoteFile.Proofs.World.Bytes

/-!
# What attempts use up of their connections

Every connection that was ever opened is followed through the turns of the attempts: it appears in
the turn that opens it, and moves on in the turns of those who read on it. All that it has yielded
was dropped or copied in one of these turns, whatever has come of the attempt.

Main statements:

* `Fetch.follows` : what a turn of an attempt does to the connections.
* `Fetch.inHand_step`, `Fetch.inHand_done` : what is copied stays in hand until the attempt ends.
-/

namespace RemoteFile

namespace World

variable {σ τ : Type} {s : Setting σ τ} {ticket : τ} {r : Except Failure Body} {w w₁ : World σ}

theorem counters_of_collect (h : w.collect s ticket = (r, w₁)) : w₁.counters = w.counters := by
  rw [collect_eq] at h
  cases h
  rfl

theorem now_of_collect (h : w.collect s ticket = (r, w₁)) : w₁.now = w.now := by
  rw [collect_eq] at h
  cases h
  rfl

end World

namespace Fetch

variable {σ τ : Type}

/-- The connection that an attempt opens in its turn. -/
def opened? (s : Setting σ τ) (f : Fetch τ) (w : World σ) : Option Connection :=
  match f.phase with
  | .looking | .parked _ | .reading _ => none
  | .opening id stop ticket deadline =>
    match s.net.arrival ticket (some deadline) w.now with
    | .pending _ | .late => none
    | .here =>
      match (w.collect s ticket).1 with
      | .ok body => some (.opened id f.offset stop body w.now)
      | .error _ => none

/-- The connection that an attempt reads on in its turn, as the turn leaves it. -/
def moved? (s : Setting σ τ) (f : Fetch τ) (w : World σ) : Option Connection :=
  match f.phase with
  | .looking | .parked _ | .opening _ _ _ _ => none
  | .reading r => some (Reading.connAfter (r.step s.options.timeouts.idle w).1)

/-- Follows the connections through a turn of an attempt in a world. -/
def follow (s : Setting σ τ) (x : World σ × Fetch τ) (spans : List Span) : List Span :=
  match x.2.opened? s x.1, x.2.moved? s x.1 with
  | some c, _ => .opened c :: spans
  | none, some c => Span.advance c spans
  | none, none => spans

/-- The connections that were ever opened, as far as they have come in the turns that attempts have
taken, the latest turn first. -/
def spans (s : Setting σ τ) (ms : List (World σ × Fetch τ)) : List Span := ms.foldr (follow s) []

/-- How many bytes an attempt copies in its turn. -/
def copying (f : Fetch τ) : Nat :=
  match f.phase with
  | .looking | .parked _ | .opening _ _ _ _ => 0
  | .reading r => r.taken.length

/-- How many bytes were dropped in the turns of attempts. -/
def skipped (ms : List (World σ × Fetch τ)) : Nat := (ms.map fun x => x.2.skipping).sum

/-- How many bytes were copied in them. -/
def copied (ms : List (World σ × Fetch τ)) : Nat := (ms.map fun x => x.2.copying).sum

theorem skipped_cons (w : World σ) (f : Fetch τ) (ms : List (World σ × Fetch τ)) :
    skipped ((w, f) :: ms) = f.skipping + skipped ms := List.sum_cons

theorem copied_cons (w : World σ) (f : Fetch τ) (ms : List (World σ × Fetch τ)) :
    copied ((w, f) :: ms) = f.copying + copied ms := List.sum_cons

/-- The connection that an attempt reads on. -/
def held? (f : Fetch τ) : Option Connection :=
  match f.phase with
  | .looking | .parked _ | .opening _ _ _ _ => none
  | .reading r => some r.conn

/-- The number of the connection that an attempt waits for. -/
def awaited? (f : Fetch τ) : Option Nat :=
  match f.phase with
  | .looking | .parked _ | .reading _ => none
  | .opening id _ _ _ => some id

/-- The connections that are idle or read on. -/
def openConns (p : Pool) (fs : List (Fetch τ)) : List Connection := p.idle ++ fs.filterMap held?

variable {s : Setting σ τ} {f f' g : Fetch τ} {w w' : World σ} {c d : Connection} {i : Nat}
  {t : Turn (Fetch τ) (Except Failure (List UInt8))}

theorem conn?_of_held? (h : f.held? = some c) : f.conn? = some c.id := by
  obtain ⟨source, offset, len, phase⟩ := f
  cases phase <;> cases h
  rfl

theorem conn?_of_awaited? (h : f.awaited? = some i) : f.conn? = some i := by
  obtain ⟨source, offset, len, phase⟩ := f
  cases phase <;> cases h
  rfl

theorem awaited?_of_held? (h : f.held? = some c) : f.awaited? = none := by
  obtain ⟨source, offset, len, phase⟩ := f
  cases phase <;> cases h
  rfl

theorem spans_of_opened? (ms : List (World σ × Fetch τ)) (h : f.opened? s w = some c) :
    spans s ((w, f) :: ms) = .opened c :: spans s ms := by
  simp only [spans, List.foldr_cons, follow, h]

theorem spans_of_moved? (ms : List (World σ × Fetch τ)) (hnew : f.opened? s w = none)
    (h : f.moved? s w = some c) : spans s ((w, f) :: ms) = Span.advance c (spans s ms) := by
  simp only [spans, List.foldr_cons, follow, hnew, h]

theorem spans_of_none (ms : List (World σ × Fetch τ)) (hnew : f.opened? s w = none)
    (h : f.moved? s w = none) : spans s ((w, f) :: ms) = spans s ms := by
  simp only [spans, List.foldr_cons, follow, hnew, h]

/-- What a turn of an attempt does to the connections. -/
inductive Follows (s : Setting σ τ) (f : Fetch τ) (w : World σ)
    (t : Turn (Fetch τ) (Except Failure (List UInt8))) (w' : World σ) : Prop
  /-- One is opened. -/
  | opens {c : Connection} (h : f.opened? s w = some c) (hid : f.awaited? = some c.id)
      (hidle : w'.pool.idle = w.pool.idle)
      (hcount : w'.counters.connsOpened = w.counters.connsOpened + 1)
      (hnone : f.skipping = 0 ∧ f.copying = 0)
      (hnext : ∀ f', t.next? = some f' → f'.held? = some c)
  /-- One is read on. -/
  | moves {d c : Connection} (hnew : f.opened? s w = none) (h : f.moved? s w = some c)
      (hheld : f.held? = some d) (hid : c.id = d.id)
      (hcursor : c.cursor = d.cursor + (f.skipping + f.copying))
      (hidle : ∀ e ∈ w'.pool.idle, e ∈ w.pool.idle ∨ e.id = c.id ∧ e.cursor = c.cursor)
      (hcount : w'.counters.connsOpened = w.counters.connsOpened)
      (hnext : ∀ f', t.next? = some f' → f'.held? = some c)
  /-- They stay as they are, and one may be handed out or asked for. -/
  | stays (hnew : f.opened? s w = none) (h : f.moved? s w = none)
      (hidle : ∀ e ∈ w'.pool.idle, e ∈ w.pool.idle)
      (hcount : w'.counters.connsOpened = w.counters.connsOpened)
      (hnone : f.skipping = 0 ∧ f.copying = 0)
      (hheld : ∀ f', t.next? = some f' → ∀ c, f'.held? = some c → c ∈ w.pool.idle)
      (hawaited : ∀ f', t.next? = some f' → ∀ i, f'.awaited? = some i →
        f.awaited? = some i ∨ i = w.pool.nextId)

theorem not_moving (f : Fetch τ) (s : Setting σ τ) (w : World σ)
    (hf : ∀ r, f.phase ≠ .reading r) :
    f.moved? s w = none ∧ f.skipping = 0 ∧ f.copying = 0 := by
  cases hphase : f.phase with
  | reading r => exact absurd hphase (hf r)
  | looking | parked | opening =>
    rw [moved?, skipping, copying, hphase]
    exact ⟨rfl, rfl, rfl⟩

theorem opened_request {w₁ : World σ} (h : f.request s w₁ = (t, w')) :
    w'.counters.connsOpened = w₁.counters.connsOpened := by
  simp only [request, World.issue_eq] at h
  cases h
  rfl

theorem follows_request {q : Pool} {w₁ : World σ} (hf : f.phase = .looking)
    (h : f.request s w₁ = (t, w')) (hpool : w₁.pool = q)
    (hcount : w₁.counters.connsOpened = w.counters.connsOpened)
    (hidle : ∀ e ∈ q.idle, e ∈ w.pool.idle) (hnext : q.nextId = w.pool.nextId) :
    Follows s f w t w' := by
  obtain ⟨⟨deadline, rfl⟩, hpool', -⟩ := requested h
  rw [hpool] at hpool'
  have hopened := opened_request h
  obtain ⟨hmoved, hnone⟩ := f.not_moving s w (by simp [hf])
  refine .stays ?_ hmoved (fun e he => ?_) (hopened.trans hcount) hnone (fun f' hf' => ?_)
    (fun f' hf' => ?_)
  · rw [opened?, hf]
  · rw [hpool'] at he
    exact hidle e he
  · cases hf'
    intro c hc
    cases hc
  · cases hf'
    intro i hi
    cases hi
    rw [hpool]
    exact .inr hnext

theorem follows_await {id stop deadline : Nat} {ticket : τ}
    (hf : f.phase = .opening id stop ticket deadline)
    (h : f.await s id stop ticket deadline w = (t, w')) : Follows s f w t w' := by
  have hawaited : f.awaited? = some id := by rw [awaited?, hf]
  obtain ⟨hmoved, hnone⟩ := f.not_moving s w (by simp [hf])
  unfold await at h
  split at h
  · rename_i harr
    cases h
    refine .stays ?_ hmoved (fun e he => he) rfl hnone (fun f' hf' c hc => ?_)
      (fun f' hf' i hi => ?_)
    · simp only [opened?, hf, harr]
    · cases hf'
      cases (awaited?_of_held? hc).symm.trans hawaited
    · cases hf'
      exact .inl hi
  · rename_i harr
    cases h
    refine .stays ?_ hmoved (fun e he => he) rfl hnone ?_ ?_
    · simp only [opened?, hf, harr]
    · rintro f' ⟨⟩
    · rintro f' ⟨⟩
  · rename_i harr
    split at h <;> rename_i w₁ hcol
    · have hpool := World.pool_of_collect hcol
      have hcounters := World.counters_of_collect hcol
      have hanswer := congrArg Prod.fst hcol
      cases h
      refine .stays ?_ hmoved (fun e he => ?_) ?_ hnone ?_ ?_
      · simp only [opened?, hf, harr, hanswer]
      · rw [World.pool_freeSlot, hpool] at he
        exact he
      · exact congrArg Counters.connsOpened hcounters
      · rintro f' ⟨⟩
      · rintro f' ⟨⟩
    · rename_i body
      have hpool := World.pool_of_collect hcol
      have hcounters := World.counters_of_collect hcol
      have hanswer := congrArg Prod.fst hcol
      have hnow := World.now_of_collect hcol
      have hnew : f.opened? s w = some (.opened id f.offset stop body w.now) := by
        simp only [opened?, hf, harr, hanswer]
      rw [← hnow] at hnew
      have hidle : w₁.pool.idle = w.pool.idle := congrArg Pool.idle hpool
      have hcount : w₁.counters.connsOpened + 1 = w.counters.connsOpened + 1 :=
        congrArg (·.connsOpened + 1) hcounters
      -- the connection is counted also if the read is refused on it
      unfold use at h
      split at h <;> rename_i hstart <;> cases h
      · obtain ⟨-, -, rfl⟩ := Reading.start_eq_ok_iff.1 hstart
        refine .opens hnew hawaited hidle hcount hnone ?_
        rintro f' ⟨⟩
        rfl
      · refine .opens hnew hawaited hidle hcount hnone ?_
        rintro f' ⟨⟩

theorem follows_read {r : Reading} (hf : f.phase = .reading r)
    (h : f.read s r w = (t, w')) : Follows s f w t w' := by
  rcases hr : r.step s.options.timeouts.idle w with ⟨tr, w₁⟩
  have hnew : f.opened? s w = none := by rw [opened?, hf]
  have hmoved : f.moved? s w = some (Reading.connAfter tr) := by
    rw [moved?, hf]
    simp only [hr]
  have hheld : f.held? = some r.conn := by rw [held?, hf]
  have hcursor : (Reading.connAfter tr).cursor = r.conn.cursor + (f.skipping + f.copying) := by
    rw [skipping, copying, hf, ← Nat.add_assoc]
    exact Reading.cursor_step hr
  have hbeside := Reading.beside_step hr
  have hpool := hbeside.pool
  unfold read at h
  rw [hr] at h
  cases tr with
  | moved r' | waits r' =>
    cases h
    refine .moves hnew hmoved hheld (Reading.id_step hr) hcursor (fun e he => ?_)
      hbeside.unread.opened ?_
    · exact .inl (hpool ▸ he)
    · rintro f' ⟨⟩
      rfl
  | done x =>
    obtain ⟨b, c⟩ := x
    cases b with
    | ok bytes =>
      cases h
      -- the connection is closed, or it is idle from now on
      refine .moves hnew hmoved hheld (Reading.id_step hr) hcursor (fun e he => ?_) ?_ ?_
      · rcases w₁.giveBack_eq s c with ⟨heq, -⟩ | ⟨heq, -⟩ <;> rw [heq] at he
        · rw [World.pool_giveUp, hpool] at he
          exact .inl he
        · rw [World.pool_manage, hpool] at he
          rcases List.mem_append.1 he with he | he
          · exact .inl he
          · cases List.mem_singleton.1 he
            exact .inr ⟨rfl, rfl⟩
      · rcases w₁.giveBack_eq s c with ⟨heq, -⟩ | ⟨heq, -⟩ <;> rw [heq] <;>
          exact hbeside.unread.opened
      · rintro f' ⟨⟩
    | error e =>
      cases h
      refine .moves hnew hmoved hheld (Reading.id_step hr) hcursor (fun e he => ?_) ?_ ?_
      · rw [World.pool_giveUp, hpool] at he
        exact .inl he
      · exact hbeside.unread.opened
      · rintro f' ⟨⟩

theorem follows_look (hf : f.phase = .looking) (h : f.look s w = (t, w')) :
    Follows s f w t w' := by
  have hnew : f.opened? s w = none := by rw [opened?, hf]
  obtain ⟨hmoved, hnone⟩ := f.not_moving s w (by simp [hf])
  have hsweep : ∀ e ∈ (w.pool.sweep s.options.pool w.now).idle, e ∈ w.pool.idle :=
    fun e he => (List.mem_filter.1 he).1
  have hcount : (w.sweep s).counters.connsOpened = w.counters.connsOpened := by
    rw [World.sweep_eq]
    rfl
  cases turned_look hf h with
  | refused =>
    refine .stays hnew hmoved (fun e he => he) rfl hnone ?_ ?_
    · rintro f' ⟨⟩
    · rintro f' ⟨⟩
  | reuses _ _ hq =>
    cases hq with
    | reuse hskip hidle hleast =>
      refine .stays hnew hmoved (fun e he => ?_) hcount hnone ?_ ?_
      · exact hsweep e (hidle.mem_iff.2 (List.mem_cons_of_mem _ he))
      · rintro f' ⟨⟩ c ⟨⟩
        exact hsweep _ (hidle.mem_iff.2 List.mem_cons_self)
      · rintro f' ⟨⟩ i ⟨⟩
  | reserves _ _ hq hr =>
    cases hq with
    | reserve => exact follows_request hf hr rfl hcount hsweep rfl
  | replaces _ _ hq hr =>
    cases hq with
    | replace hskip hfull hidle =>
      exact follows_request hf hr rfl hcount
        (fun e he => hsweep e (hidle.mem_iff.2 (List.mem_cons_of_mem _ he))) rfl
  | parks _ _ hq =>
    cases hq with
    | wait =>
      refine .stays hnew hmoved hsweep hcount hnone ?_ ?_
      · rintro f' ⟨⟩ c ⟨⟩
      · rintro f' ⟨⟩ i ⟨⟩
  | rouses hf' | dozes hf' | expects hf' | expires hf' | denied hf' | opens hf' | wastes hf'
  | reads hf' | finishes hf' | breaks hf' => cases hf.symm.trans hf'

/-- **What a turn of an attempt does to the connections.** -/
theorem follows (h : f.step s w = (t, w')) : Follows s f w t w' := by
  unfold step at h
  split at h
  · rename_i hf
    exact follows_look hf h
  · rename_i since hf
    have hnew : f.opened? s w = none := by rw [opened?, hf]
    obtain ⟨hmoved, hnone⟩ := f.not_moving s w (by simp [hf])
    split at h <;> cases h
    · refine .stays hnew hmoved (fun e he => he) rfl hnone ?_ ?_
      · rintro f' ⟨⟩ c ⟨⟩
      · rintro f' ⟨⟩ i ⟨⟩
    · refine .stays hnew hmoved (fun e he => he) rfl hnone ?_ ?_
      · rintro f' ⟨⟩ c hc
        rw [held?, hf] at hc
        cases hc
      · rintro f' ⟨⟩ i hi
        exact .inl hi
  · rename_i hf
    exact follows_await hf h
  · rename_i hf
    exact follows_read hf h

/-! ### What an attempt has in hand -/

/-- How many bytes an attempt has copied. -/
def inHand (f : Fetch τ) : Nat :=
  match f.phase with
  | .looking | .parked _ | .opening _ _ _ _ => 0
  | .reading r => r.bytes.length

theorem inHand_of_looking (hf : f.phase = .looking) : f.inHand = 0 := by
  rw [inHand, hf]

/-- An attempt that goes on has what it copies. -/
theorem inHand_step (h : f.step s w = (t, w')) (ht : t.next? = some f') :
    f'.inHand = f.inHand + f.copying := by
  cases turned h with
  | refused | expires | denied | wastes | finishes | breaks => cases ht
  | reuses hf | parks hf | rouses hf | opens hf =>
    cases ht
    rw [inHand, inHand, copying, hf]
    rfl
  | reserves hf _ _ hr | replaces hf _ _ hr =>
    obtain ⟨⟨deadline, rfl⟩, -⟩ := requested hr
    cases ht
    rw [inHand, inHand, copying, hf]
    rfl
  | dozes hf | expects hf =>
    cases ht
    rw [inHand, copying, hf]
    rfl
  | reads hf hr hnext ht' =>
    cases ht'.symm.trans ht
    rw [inHand, inHand, copying, hf]
    simp only
    rw [Reading.bytes_step hr hnext, List.length_append]

/-- An attempt that succeeds yields what it has copied. -/
theorem inHand_done {bytes : List UInt8} (h : f.step s w = (.done (.ok bytes), w')) :
    bytes.length = f.inHand + f.copying := by
  cases turned h with
  | @reads r r' tr t w' hphase hr hnext ht => cases ht
  | finishes hf hr =>
    rw [inHand, copying, hf]
    simp only
    rw [Reading.bytes_done hr, List.length_append]
  | reserves _ _ _ hr | replaces _ _ _ hr =>
    obtain ⟨⟨deadline, heq⟩, -⟩ := requested hr
    cases heq

end Fetch

end RemoteFile
