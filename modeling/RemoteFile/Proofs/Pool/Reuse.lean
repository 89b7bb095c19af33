import RemoteFile.Proofs.Crowd.Trace
import RemoteFile.Proofs.Pool.Custody
import RemoteFile.Proofs.Transport.Script

/-!
# What is read on again

A trace of reads tells of each connection what became of the last read on it. Connections are idle
only after a read on them that succeeded, and a connection that was spoilt, as a read on it failed,
was dropped or came to its end, is nobody's from then on.

Main statements:

* `PoolRead.idle_of_does` : a connection becomes idle by a read on it that succeeded.
* `PoolRead.gone_of_spoils` : a connection that is spoilt is nobody's.
* `PoolRead.idle_only_after_success` : which connections are idle, and which ones never are again.
-/

namespace RemoteFile

namespace PoolRead

variable {σ τ : Type}

/-- What becomes of a read on a connection. -/
inductive Verdict where
  /-- It has yielded bytes. -/
  | succeeded
  /-- It has failed. -/
  | failed
  /-- It was dropped before it came to an end. -/
  | dropped
deriving DecidableEq, Repr

/-- What happens among reads through a pool. -/
abbrev Happening (τ : Type) :=
  Crowd.Happening Wanted (PoolRead τ) (Except Failure (List UInt8))

/-- The number of the connection that a read opens or reads on. -/
def conn? (p : PoolRead τ) : Option Nat := p.attempt?.bind Fetch.conn?

/-- What becomes of the read on the connection with a number; none if it is not touched, or is read
on further. -/
def verdict? (i : Nat) : Happening τ → Option Verdict
  | .joins _ | .outside => none
  | .turns _ p t =>
    if p.conn? = some i ∧ t.next?.bind conn? ≠ some i then
      match t with
      | .done (.ok _) => some .succeeded
      | .done (.error _) | .moved _ | .waits _ _ => some .failed
    else none
  | .drops _ p => if p.conn? = some i then some .dropped else none

/-- What became of the last read on the connection with a number. -/
def lastVerdict (hs : List (Happening τ)) (i : Nat) : Option Verdict := hs.findSome? (verdict? i)

/-- What spoils the connection with a number in a world. -/
inductive Spoils {σ : Type} (s : Setting σ τ) (w : World σ) : Happening τ → Nat → Prop
  /-- The attempt that holds it fails. -/
  | failed {k : Wanted} {p : PoolRead τ} {t : Turn (PoolRead τ) (Except Failure (List UInt8))}
      {f : Fetch τ} {e : Failure} {w₁ : World σ} {i : Nat} (hp : p.attempt? = some f)
      (hi : f.conn? = some i) (h : f.step s w = (.done (.error e), w₁)) :
      Spoils s w (.turns k p t) i
  /-- A read on it comes to its end. -/
  | spent {k : Wanted} {p : PoolRead τ} {t : Turn (PoolRead τ) (Except Failure (List UInt8))}
      {f : Fetch τ} {r : Reading} {bytes : List UInt8} {c : Connection} {w₁ : World σ}
      (hp : p.attempt? = some f) (hf : f.phase = .reading r)
      (h : r.step s.options.timeouts.idle w = (.done (.ok bytes, c), w₁))
      (hend : c.stop ≤ c.cursor) : Spoils s w (.turns k p t) r.conn.id
  /-- The read that holds it is dropped. -/
  | dropped {k : Wanted} {p : PoolRead τ} {i : Nat} (hp : p.conn? = some i) :
      Spoils s w (.drops k p) i

variable {s : Setting σ τ} {shift : σ → σ → Prop} {w₀ w w' w₁ : World σ}
  {c c' : Crowd (World σ) Wanted (PoolRead τ) (Except Failure (List UInt8))}
  {e : Happening τ} {hs : List (Happening τ)} {p : PoolRead τ} {d : Connection} {i : Nat}
  {t : Turn (PoolRead τ) (Except Failure (List UInt8))}

/-! ### Custody among reads -/

theorem custody (h : Crowd.Reachable (rules s shift) (Crowd.empty w₀) c)
    (h₀ : w₀.pool = Pool.fresh) : Fetch.Custody s c.world (c.attempts attempt?) :=
  Crowd.custody pooling h h₀

theorem passes_of_step (h : Crowd.Step (rules s shift) c c') :
    Fetch.Passes c.world.pool (c.attempts attempt?) c'.world.pool (c'.attempts attempt?) := by
  rcases h.moved attempting with ⟨l, r, o, o', hl, hl', hmove⟩ | ⟨heq, hout⟩
  · rw [hl, hl']
    exact hmove.manages.passes.frame l r
  · rw [heq]
    exact Outside.passes hout

theorem gone_of_trace (h : Crowd.Trace (rules s shift) c hs c') (hi : i < c.world.pool.nextId)
    (hmem : i ∉ Fetch.conns c.world.pool (c.attempts attempt?)) :
    i ∉ Fetch.conns c'.world.pool (c'.attempts attempt?) := by
  refine (h.invariant (I := fun _ c => i < c.world.pool.nextId ∧
    i ∉ Fetch.conns c.world.pool (c.attempts attempt?)) ⟨hi, hmem⟩ fun _ hg hd => ?_).2
  exact (passes_of_step hd.step).not_mem hg.1 hg.2

/-! ### What becomes idle -/

theorem idle_of_step (h : p.step s w = (t, w')) (hd : d ∈ w'.pool.idle) :
    d ∈ w.pool.idle ∨ p.conn? = some d.id ∧ ∃ bytes, t = .done (.ok bytes) := by
  obtain ⟨ot, hstep, -, hdone⟩ := next?_step h
  cases Operation.turned hstep with
  | aside ho hw hnext hend => exact .inl (hw.pool ▸ hd)
  | goesOn ho ha hta ht ho' =>
    refine (Fetch.idle_step ha hd).imp_right fun hl => ?_
    obtain ⟨bytes, rfl⟩ := hl.done
    cases hta
  | @succeeds f bytes _ ho ha =>
    refine (Fetch.idle_step ha hd).imp_right fun hl => ⟨?_, bytes, (hdone _).2 rfl⟩
    obtain ⟨r, hr, hsame⟩ := hl.reading
    rw [conn?, attempt?, ho, Option.bind_some, Fetch.conn?_of_reading hr, hsame.id]
  | fails ho ha hw hnext hend =>
    refine (Fetch.idle_step ha (hw.pool ▸ hd)).imp_right fun hl => ?_
    obtain ⟨bytes, hbytes⟩ := hl.done
    cases hbytes

theorem idle_drop (p : PoolRead τ) (w : World σ) :
    (p.drop s w).pool.idle = w.pool.idle := by
  cases ho : p.operation.attempt? with
  | none => exact congrArg Pool.idle (Operation.beside_drop ho w).pool
  | some f =>
    rw [drop, Operation.drop_of_attempt? ho]
    exact Fetch.idle_drop s f w

/-- A read whose attempt ends makes no attempt after that turn, and does no more to the pool. -/
theorem ends_of_step {f : Fetch τ} {b : Except Failure (List UInt8)} (hp : p.attempt? = some f)
    (h : p.step s w = (t, w')) (hf : f.step s w = (.done b, w₁)) :
    t.next?.bind attempt? = none ∧ w'.pool = w₁.pool := by
  obtain ⟨ot, hstep, hnext, -⟩ := next?_step h
  have hbind : t.next?.bind attempt? = ot.next?.bind Operation.attempt? := by
    rw [hnext]
    cases ot.next? <;> rfl
  rw [hbind]
  have hp : p.operation.attempt? = some f := hp
  cases Operation.turned hstep with
  | aside ho => cases hp.symm.trans ho
  | goesOn ho ha hta =>
    cases hp.symm.trans ho
    cases ha.symm.trans hf
    cases hta
  | succeeds ho ha =>
    cases hp.symm.trans ho
    cases ha.symm.trans hf
    exact ⟨rfl, rfl⟩
  | fails ho ha hw hgo =>
    cases hp.symm.trans ho
    cases ha.symm.trans hf
    refine ⟨?_, hw.pool⟩
    cases hto : ot.next? with
    | none => rfl
    | some o' => exact hgo o' hto

theorem attempts_next (l r : List (Wanted × PoolRead τ)) (k : Wanted)
    (rs : List (Wanted × Except Failure (List UInt8))) :
    (⟨w, l ++ (t.next?.map (k, ·)).toList ++ r, rs⟩ :
      Crowd (World σ) Wanted (PoolRead τ) (Except Failure (List UInt8))).attempts attempt? =
      l.filterMap (fun x => attempt? x.2) ++ (t.next?.bind attempt?).toList ++
        r.filterMap fun x => attempt? x.2 := by
  simp only [Crowd.attempts, List.filterMap_append]
  cases t.next? with
  | none => rfl
  | some p =>
    simp only [Option.map_some, Option.toList_some, Option.bind_some, List.filterMap_cons,
      List.filterMap_nil]
    cases p.attempt? <;> rfl

theorem not_held (hc : Fetch.Custody s c.world (c.attempts attempt?)) (hd : d ∈ c.world.pool.idle)
    {k : Wanted} (hp : (k, p) ∈ c.tasks) : p.conn? ≠ some d.id := by
  intro hid
  obtain ⟨f, hf, hconn⟩ := Option.bind_eq_some_iff.1 hid
  exact hc.apart.not_held hd (List.mem_filterMap.2 ⟨_, hp, hf⟩) hconn

/-- **A connection becomes idle by a read on it that succeeded.**  One that was idle before is not
touched. -/
theorem idle_of_does (hc : Fetch.Custody s c.world (c.attempts attempt?))
    (h : Crowd.Does (rules s shift) c e c') (hd : d ∈ c'.world.pool.idle) :
    d ∈ c.world.pool.idle ∧ verdict? d.id e = none ∨ verdict? d.id e = some .succeeded := by
  cases h with
  | joins w ts rs k => exact .inl ⟨hd, rfl⟩
  | outside ts rs hout => exact .inl ⟨Outside.idle hout hd, rfl⟩
  | drops w p l r rs k =>
    have hd : d ∈ w.pool.idle := idle_drop p w ▸ hd
    exact .inl ⟨hd, if_neg (not_held hc hd (k := k) (by simp))⟩
  | turns l r rs k hstep =>
    rcases idle_of_step hstep hd with hd | ⟨hid, bytes, rfl⟩
    · exact .inl ⟨hd, if_neg fun hand => not_held hc hd (k := k) (by simp) hand.1⟩
    · exact .inr (if_pos ⟨hid, nofun⟩)

theorem lastVerdict_of_idle (h : Crowd.Trace (rules s shift) (Crowd.empty w₀) hs c)
    (h₀ : w₀.pool = Pool.fresh) : ∀ d ∈ c.world.pool.idle, lastVerdict hs d.id = some .succeeded := by
  refine h.invariant (I := fun hs c => ∀ d ∈ c.world.pool.idle,
    lastVerdict hs d.id = some .succeeded) ?_ fun ht ih hdoes d hd => ?_
  · intro d hd
    change d ∈ w₀.pool.idle at hd
    rw [h₀] at hd
    cases hd
  · rw [lastVerdict, List.findSome?_cons]
    rcases idle_of_does (custody ht.reachable h₀) hdoes hd with ⟨hd, hnone⟩ | hsome
    · rw [hnone]
      exact ih d hd
    · rw [hsome]

theorem gone_of_lets_go {l r : List (Fetch τ)} {f : Fetch τ}
    (hc : Fetch.Custody s c.world (c.attempts attempt?)) (h : Crowd.Step (rules s shift) c c')
    (hl : c.attempts attempt? = l ++ (some f).toList ++ r)
    (hl' : c'.attempts attempt? = l ++ (none : Option (Fetch τ)).toList ++ r)
    (hi : f.conn? = some i) (hidle : ∀ d ∈ c'.world.pool.idle, d ∈ c.world.pool.idle) :
    i < c'.world.pool.nextId ∧ i ∉ Fetch.conns c'.world.pool (c'.attempts attempt?) := by
  have hmem : i ∈ Fetch.conns c.world.pool (c.attempts attempt?) := by
    rw [hl]
    exact List.mem_append_right _ (List.mem_filterMap.2 ⟨f, by simp, hi⟩)
  refine ⟨Nat.lt_of_lt_of_le (hc.apart.known i hmem) (passes_of_step h).nextId, ?_⟩
  rw [hl']
  exact Fetch.Apart.not_mem_of_lets_go (hl ▸ hc.apart) hi hidle

/-- **A connection that is spoilt is nobody's.** -/
theorem gone_of_spoils (hc : Fetch.Custody s c.world (c.attempts attempt?))
    (h : Crowd.Does (rules s shift) c e c') (hspoils : Spoils s c.world e i) :
    i < c'.world.pool.nextId ∧ i ∉ Fetch.conns c'.world.pool (c'.attempts attempt?) := by
  have hstep' := h.step
  cases h with
  | joins | outside => cases hspoils
  | drops w p l r rs k =>
    cases hspoils with
    | dropped hp =>
      obtain ⟨f, hf, hi⟩ := Option.bind_eq_some_iff.1 hp
      refine gone_of_lets_go hc hstep' (l := l.filterMap fun x => attempt? x.2)
        (r := r.filterMap fun x => attempt? x.2) ?_ ?_ hi fun d hd => idle_drop p w ▸ hd
      · rw [← hf]
        exact Crowd.attempts_split w l r k p rs
      · simp [Crowd.attempts]
  | @turns w w' p t l r rs k hstep =>
    cases hspoils with
    | failed hp hi hf =>
      obtain ⟨hnext, hpool⟩ := ends_of_step hp hstep hf
      refine gone_of_lets_go hc hstep' (hp ▸ Crowd.attempts_split _ l r k _ rs)
        (hnext ▸ attempts_next l r k _) hi fun d hd => ?_
      rcases Fetch.idle_step hf (hpool ▸ hd) with hd | hl
      · exact hd
      · obtain ⟨bytes, hbytes⟩ := hl.done
        cases hbytes
    | @spent _ _ _ f x bytes y w₁ hp hf hread hend =>
      have hfetch : f.step s w = (.done (.ok bytes), w₁.giveBack s y) := by
        rw [Fetch.step, hf]
        simp only [Fetch.read, hread]
      obtain ⟨hnext, hpool⟩ := ends_of_step hp hstep hfetch
      refine gone_of_lets_go hc hstep' (hp ▸ Crowd.attempts_split _ l r k _ rs)
        (hnext ▸ attempts_next l r k _) (Fetch.conn?_of_reading hf) fun d hd => ?_
      rw [hpool, World.giveBack, if_pos (by simp [Connection.isSpent, hend]), World.pool_giveUp,
        (Reading.beside_step hread).pool] at hd
      exact hd

/-- **A connection is used again only after a read on it that succeeded.**  Whatever reads join,
take their turns, end and are dropped, and whenever the pool is closed: a connection is idle only if
the last read on it succeeded, it has bytes of the object left, and the pool is open; nobody has a
connection together with somebody else, and no connection is idle twice. When a read on a connection
fails, comes to its end or is dropped, then nobody ever has that connection again. -/
theorem idle_only_after_success (h₀ : w₀.pool = Pool.fresh)
    (h : Crowd.Trace (rules s shift) (Crowd.empty w₀) hs c) :
    (∀ d ∈ c.world.pool.idle, lastVerdict hs d.id = some .succeeded ∧ d.cursor < d.stop ∧
      d.stop ≤ s.size ∧ c.world.pool.closed = false) ∧
    (c.world.pool.idle.map Connection.id ++ c.tasks.filterMap fun x => x.2.conn?).Nodup ∧
    ∀ {e : Happening τ} {hs' : List (Happening τ)}
      {c' c'' : Crowd (World σ) Wanted (PoolRead τ) (Except Failure (List UInt8))} {i : Nat},
      Crowd.Does (rules s shift) c e c' → Spoils s c.world e i →
      Crowd.Trace (rules s shift) c' hs' c'' →
      (∀ d ∈ c''.world.pool.idle, d.id ≠ i) ∧ ∀ x ∈ c''.tasks, x.2.conn? ≠ some i := by
  have hc := custody h.reachable h₀
  have hconns : ∀ c : Crowd (World σ) Wanted (PoolRead τ) (Except Failure (List UInt8)),
      Fetch.conns c.world.pool (c.attempts attempt?) =
        c.world.pool.idle.map Connection.id ++ c.tasks.filterMap fun x => x.2.conn? := fun c => by
    rw [Fetch.conns, Crowd.attempts, List.filterMap_filterMap]
    rfl
  refine ⟨fun d hd => ⟨lastVerdict_of_idle h h₀ d hd, hc.idle d hd |>.1, hc.idle d hd |>.2, ?_⟩, ?_,
    fun hdoes hspoils ht => ?_⟩
  · rw [← Bool.not_eq_true]
    intro hclosed
    rw [hc.closed hclosed] at hd
    cases hd
  · rw [← hconns]
    exact List.nodup_iff_count_le_one.2 hc.apart.once
  · obtain ⟨hlt, hmem⟩ := gone_of_spoils hc hdoes hspoils
    have hgone := gone_of_trace ht hlt hmem
    rw [hconns, List.mem_append, not_or] at hgone
    refine ⟨fun d hd hid => hgone.1 ?_, fun x hx hid => hgone.2 (List.mem_filterMap.2 ⟨x, hx, hid⟩)⟩
    exact hid ▸ List.mem_map_of_mem hd

/-- A pool of two connections, which skips nothing and makes one attempt for a read. -/
def twoConns : Setting Script.State Script.Ticket :=
  Script.setting 4 ⟨2, 0, .ofSeconds 10, none⟩ 1

/-- Two responses. -/
def twoBodies : World Script.State := Script.world [[.chunk [0, 1, 2, 3]], [.chunk [0]]]

/-- One connection is idle after a read on it, and another one is dropped half way. -/
theorem idle_only_after_success_of_two :
    ∃ hs c k p c', Crowd.Trace (rules twoConns fun _ _ => False) (Crowd.empty twoBodies) hs c ∧
      c.world.pool.idle.map Connection.id = [1] ∧ lastVerdict hs 1 = some .succeeded ∧
      c.tasks = [(k, p)] ∧ p.conn? = some 2 ∧
      Crowd.Does (rules twoConns fun _ _ => False) c (.drops k p) c' ∧
      ∀ d ∈ c'.world.pool.idle, d.id ≠ 2 := by
  have hplay : ((Crowd.empty twoBodies).narrate (rules twoConns fun _ _ => False) []
      [.join ⟨0, 2⟩, .turn 0, .turn 0, .turn 0, .turn 0, .turn 0, .join ⟨0, 2⟩, .turn 0, .turn 0,
        .turn 0]).map (fun x => (x.2.world.pool.idle.map Connection.id,
          x.2.tasks.map fun t => t.2.conn?)) = some ([1], [some 2]) := by
    decide +kernel
  obtain ⟨⟨hs, c⟩, htold, hseen⟩ := Option.map_eq_some_iff.1 hplay
  have ht := Crowd.trace_of_narrate .nil htold
  obtain ⟨hidle, htasks⟩ := Prod.mk.inj hseen
  obtain ⟨hlast, -, hgone⟩ := idle_only_after_success rfl ht
  obtain ⟨d, hd, hid⟩ := List.map_eq_singleton_iff.1 hidle
  obtain ⟨⟨k, p⟩, hp, hconn⟩ := List.map_eq_singleton_iff.1 htasks
  obtain ⟨w, ts, rs⟩ := c
  cases hp
  have hdrop := Crowd.Does.drops (m := rules twoConns fun _ _ => False) w p [] [] rs k
  refine ⟨hs, _, k, p, _, ht, hidle, ?_, rfl, hconn, hdrop, (hgone hdrop (.dropped hconn) .nil).1⟩
  rw [← hid]
  exact (hlast d (hd ▸ List.mem_singleton_self d)).1

end PoolRead

end RemoteFile
