import Mathlib.Order.Bounds.Defs
import Mathlib.Order.Nat
import RemoteFile.Proofs.Pool.Custody

/-!
# The ledger of a pool

A pool counts its connections in `live`: the idle ones and one for each slot that is handed out. A
`Pool.Deed` is an elementary change of a pool together with the number of slots handed out; what it
takes off the count has to be there. Every turn of an attempt comes down to such deeds, and they
keep the count right.

Main statements:

* `Pool.Deeds.accounted` : elementary changes keep the count of connections.
* `Fetch.Move.deeds` : a move of an attempt is made of elementary changes.
* `Fetch.Manages.peak` : the peak is noted whenever the count grows.
* `Crowd.accounted` : the count of connections is right in every crowd around a pool.
-/

namespace RemoteFile

namespace Pool

/-- An elementary change of a pool and of the number of slots that are handed out. Whatever is
taken off the count of connections is there. -/
inductive Deed (o : PoolOptions) : Pool × Nat → Pool × Nat → Prop
  /-- Stale connections are closed. -/
  | sweep (now : Nat) (p : Pool) (n : Nat) (h : (p.stale o now).length ≤ p.live) :
      Deed o (p, n) (p.sweep o now, n)
  /-- An idle connection is handed out, or its slot is. -/
  | take {p : Pool} {c : Connection} {rest : List Connection} (n : Nat)
      (h : p.idle.Perm (c :: rest)) : Deed o (p, n) ({ p with idle := rest }, n + 1)
  /-- A free slot is handed out. -/
  | reserve (p : Pool) (n : Nat) (h : p.live < o.maxConns) : Deed o (p, n) (p.reserve, n + 1)
  /-- A connection is numbered. -/
  | number (p : Pool) (n : Nat) : Deed o (p, n) (p.number.2, n)
  /-- A slot is given back, and is free. -/
  | release (p : Pool) (n : Nat) (h : 1 ≤ p.live) : Deed o (p, n + 1) (p.release, n)
  /-- A slot is given back with a connection in it. -/
  | putBack (p : Pool) (n : Nat) (c : Connection) : Deed o (p, n + 1) (p.putBack c, n)
  /-- The pool calls out. -/
  | wake (p : Pool) (n : Nat) : Deed o (p, n) (p.wake, n)
  /-- The pool is closed. -/
  | close (p : Pool) (n : Nat) (h : p.idle.length ≤ p.live) : Deed o (p, n) (p.close, n)

/-- Elementary changes one after the other. -/
abbrev Deeds (o : PoolOptions) : Pool × Nat → Pool × Nat → Prop := Relation.ReflTransGen (Deed o)

/-- The count of connections is right for so many slots handed out, and within its bound. -/
structure Accounted (o : PoolOptions) (p : Pool) (n : Nat) : Prop where
  /-- The connections are the idle ones and one for each slot that is handed out. -/
  live : p.live = p.idle.length + n
  /-- There are not too many. -/
  bound : p.live ≤ o.maxConns

variable {o : PoolOptions} {p q : Pool} {m n : Nat}

theorem accounted_fresh (o : PoolOptions) : Accounted o fresh 0 := ⟨rfl, Nat.zero_le _⟩

theorem Accounted.stale_le (h : Accounted o p n) (now : Nat) : (p.stale o now).length ≤ p.live := by
  have hidle : (p.stale o now).length ≤ p.idle.length := List.length_filter_le _ _
  have := h.live
  omega

theorem Accounted.idle_le (h : Accounted o p n) : p.idle.length ≤ p.live := by
  have := h.live
  omega

theorem Deed.accounted (hd : Deed o (p, n) (q, m)) (h : Accounted o p n) : Accounted o q m := by
  obtain ⟨hlive, hbound⟩ := h
  cases hd with
  | sweep now p n hs =>
    -- what is taken off the count is what leaves the idle list
    have hl := live_sweep o now p (by omega)
    have hle : (p.sweep o now).live ≤ p.live := Nat.sub_le _ _
    constructor <;> omega
  | take n hidle =>
    have hl := hidle.length_eq
    rw [List.length_cons] at hl
    constructor <;> dsimp only <;> omega
  | reserve p n hroom => constructor <;> dsimp only [Pool.reserve] <;> omega
  | number p n => exact ⟨hlive, hbound⟩
  | release p n hs => constructor <;> dsimp only [Pool.release] <;> omega
  | putBack p n c =>
    have hl : (p.putBack c).idle.length = p.idle.length + 1 := List.length_append
    have hp : (p.putBack c).live = p.live := rfl
    constructor <;> omega
  | wake p n => exact ⟨hlive, hbound⟩
  | close p n hs => constructor <;> dsimp only [Pool.close, List.length_nil] <;> omega

/-- Elementary changes keep the count of connections. -/
theorem Deeds.accounted (hd : Deeds o (p, n) (q, m)) (h : Accounted o p n) : Accounted o q m := by
  suffices ∀ x y, Deeds o x y → Accounted o x.1 x.2 → Accounted o y.1 y.2 from this _ _ hd h
  intro x y hd hx
  induction hd with
  | refl => exact hx
  | tail _ hd ih => exact Deed.accounted hd ih

end Pool

/-- The peak is noted if the count of connections grows. -/
inductive World.NotesPeak {σ : Type} (w w' : World σ) : Prop
  /-- The count does not grow. -/
  | lower (hpeak : w'.counters.peakConns = w.counters.peakConns)
      (hlive : w'.pool.live ≤ w.pool.live)
  /-- The peak is noted. -/
  | noted (hpeak : w'.counters.peakConns = max w.counters.peakConns w'.pool.live)

namespace World.NotesPeak

variable {σ : Type} {w w₁ w' : World σ}

theorem eq_max (h : w.NotesPeak w') (hle : w.pool.live ≤ w.counters.peakConns) :
    w'.counters.peakConns = max w.counters.peakConns w'.pool.live := by
  cases h with
  | lower hpeak hlive => rw [hpeak, Nat.max_eq_left (Nat.le_trans hlive hle)]
  | noted hpeak => exact hpeak

end World.NotesPeak

namespace Fetch

variable {σ τ : Type}

/-- The slots that an attempt holds: one from when it was handed out until it is given back. -/
def slots (f : Fetch τ) : Nat :=
  match f.phase with
  | .looking | .parked _ => 0
  | .opening _ _ _ _ | .reading _ => 1

/-- A number summed over attempts. -/
def total (g : Fetch τ → Nat) : List (Fetch τ) → Nat
  | [] => 0
  | f :: fs => g f + total g fs

theorem total_append (g : Fetch τ → Nat) (l r : List (Fetch τ)) :
    total g (l ++ r) = total g l + total g r := by
  induction l with
  | nil => exact (Nat.zero_add _).symm
  | cons f l ih => rw [List.cons_append, total, ih, total, Nat.add_assoc]

@[simp]
theorem total_some (g : Fetch τ → Nat) (f : Fetch τ) : total g (some f).toList = g f := rfl

theorem total_split (g : Fetch τ → Nat) (l r : List (Fetch τ)) (o : Option (Fetch τ)) :
    total g (l ++ o.toList ++ r) = total g o.toList + (total g l + total g r) := by
  simp only [total_append]
  omega

variable {s : Setting σ τ} {f : Fetch τ} {w w' : World σ} {k : Nat}
  {t : Turn (Fetch τ) (Except Failure (List UInt8))}

section

open Pool

theorem deeds_sweep (h : Accounted s.options.pool w.pool k) :
    Deeds s.options.pool (w.pool, k) (w.pool.sweep s.options.pool w.now, k) :=
  .single (.sweep _ _ _ (h.stale_le w.now))

/-- What a step of a task does to the pool is made of elementary changes. -/
theorem Manages.deeds {held held' : Option Nat} (h : Manages s w held w' held')
    (ha : Accounted s.options.pool w.pool (k + held.toList.length)) :
    Deeds s.options.pool (w.pool, k + held.toList.length) (w'.pool, k + held'.toList.length) := by
  cases h with
  | leaves _ hpool =>
    rw [hpool]
  | sweeps hpool =>
    rw [hpool]
    exact deeds_sweep ha
  | takes hidle hpool =>
    rw [hpool]
    exact (deeds_sweep ha).tail (.take k hidle)
  | reserves hroom hpool =>
    rw [hpool]
    exact ((deeds_sweep ha).tail (.reserve _ k hroom)).tail (.number _ _)
  | replaces hidle hpool =>
    -- the slot of the connection that is closed is handed out without ever being free
    rw [hpool]
    exact ((deeds_sweep ha).tail (.take k hidle)).tail (.number _ _)
  | frees id hpool =>
    have hlive : w.pool.live = w.pool.idle.length + (k + 1) := ha.live
    rw [hpool]
    exact .tail (.single (.release w.pool k (by omega))) (.wake _ _)
  | givesBack c hpool =>
    rw [hpool]
    exact .tail (.single (.putBack w.pool k c)) (.wake _ _)

theorem total_slots (o : Option (Fetch τ)) :
    total slots o.toList = (o.bind conn?).toList.length := by
  cases o with
  | none => rfl
  | some f =>
    obtain ⟨source, offset, len, phase⟩ := f
    cases phase <;> rfl

/-- **A move of an attempt is made of elementary changes.** -/
theorem Move.deeds {o o' : Option (Fetch τ)} (h : Move s w o w' o')
    (ha : Accounted s.options.pool w.pool (total slots o.toList + k)) :
    Deeds s.options.pool (w.pool, total slots o.toList + k)
      (w'.pool, total slots o'.toList + k) := by
  rw [total_slots, Nat.add_comm _ k] at ha
  rw [total_slots, total_slots, Nat.add_comm _ k, Nat.add_comm _ k]
  exact h.manages.deeds ha

end

/-- **The peak is noted whenever the count grows.** -/
theorem Manages.peak {held held' : Option Nat} (h : Manages s w held w' held') :
    w.NotesPeak w' := by
  have hsweep : (w.pool.sweep s.options.pool w.now).live ≤ w.pool.live := Nat.sub_le _ _
  cases h with
  | leaves _ hpool hpeak => exact .lower hpeak (Nat.le_of_eq (congrArg Pool.live hpool))
  | sweeps hpool hpeak | takes _ hpool hpeak | replaces _ hpool hpeak =>
    refine .lower hpeak ?_
    rw [hpool]
    exact hsweep
  | reserves _ _ hpeak => exact .noted hpeak
  | frees _ hpool hpeak =>
    refine .lower hpeak ?_
    rw [hpool]
    exact Nat.sub_le _ _
  | givesBack _ hpool hpeak =>
    refine .lower hpeak ?_
    rw [hpool]
    exact Nat.le_refl _

end Fetch

section

variable {σ τ κ α β : Type} {s : Setting σ τ} {shift : σ → σ → Prop}

theorem PoolRead.Outside.deeds {w w' : World σ} {n : Nat} (h : Outside s shift w w')
    (ha : Pool.Accounted s.options.pool w.pool n) :
    Pool.Deeds s.options.pool (w.pool, n) (w'.pool, n) := by
  cases h with
  | pass millis w => exact .refl
  | close w =>
    rw [World.pool_closePool]
    exact .tail (.single (.close _ n ha.idle_le)) (.wake _ n)
  | shift w h => exact .refl

namespace Crowd

variable {m : Rules (World σ) κ α β} {fetch? : α → Option (Fetch τ)} {w₀ : World σ}
  {c c' : Crowd (World σ) κ α β}

theorem deeds_of_step (hm : m.Pooling s shift fetch?) (h : Step m c c')
    (ha : Pool.Accounted s.options.pool c.world.pool
      (Fetch.total Fetch.slots (c.attempts fetch?))) :
    Pool.Deeds s.options.pool (c.world.pool, Fetch.total Fetch.slots (c.attempts fetch?))
      (c'.world.pool, Fetch.total Fetch.slots (c'.attempts fetch?)) := by
  rcases h.moved hm.acting.attempting with ⟨l, r, o, o', hl, hl', hmove⟩ | ⟨heq, hout⟩
  · simp only [hl, hl', Fetch.total_split] at ha ⊢
    exact hmove.deeds ha
  · obtain ⟨w₁, hpool, halike⟩ := hm.outside hout
    rw [heq, halike.pool]
    exact PoolRead.Outside.deeds hpool ha

/-- The connections that are counted are idle or handed out. -/
theorem accounted (hm : m.Pooling s shift fetch?) (h : Reachable m (empty w₀) c)
    (h₀ : w₀.pool = Pool.fresh) : Pool.Accounted s.options.pool c.world.pool
      (Fetch.total Fetch.slots (c.attempts fetch?)) := by
  refine h.invariant (I := fun c => Pool.Accounted s.options.pool c.world.pool
    (Fetch.total Fetch.slots (c.attempts fetch?))) ?_
    fun c c' hc hs => (deeds_of_step hm hs hc).accounted hc
  change Pool.Accounted s.options.pool w₀.pool 0
  rw [h₀]
  exact Pool.accounted_fresh _

end Crowd

end

namespace PoolRead

variable {σ τ : Type} {s : Setting σ τ} {shift : σ → σ → Prop} {w₀ w w' : World σ}
  {c c' : Crowd (World σ) Wanted (PoolRead τ) (Except Failure (List UInt8))}

/-- The slots that are handed out to the reads of a crowd. -/
def checkouts (c : Crowd (World σ) Wanted (PoolRead τ) (Except Failure (List UInt8))) : Nat :=
  Fetch.total Fetch.slots (c.attempts attempt?)

theorem Outside.peak (h : Outside s shift w w') : w.NotesPeak w' := by
  cases h with
  | pass millis w => exact .lower rfl (Nat.le_refl _)
  | close w =>
    refine .lower (w.peak_closePool s) ?_
    rw [World.pool_closePool]
    exact Nat.sub_le _ _
  | shift w h => exact .lower rfl (Nat.le_refl _)

theorem deeds_of_step (h : Crowd.Step (rules s shift) c c')
    (ha : Pool.Accounted s.options.pool c.world.pool (checkouts c)) :
    Pool.Deeds s.options.pool (c.world.pool, checkouts c) (c'.world.pool, checkouts c') :=
  Crowd.deeds_of_step pooling h ha

/-- The count of connections is right in every crowd that can be reached. -/
theorem accounted (h : Crowd.Reachable (rules s shift) (Crowd.empty w₀) c)
    (h₀ : w₀.pool = Pool.fresh) : Pool.Accounted s.options.pool c.world.pool (checkouts c) :=
  Crowd.accounted pooling h h₀

theorem peak_of_step (h : Crowd.Step (rules s shift) c c') : c.world.NotesPeak c'.world := by
  rcases h.moved attempting with ⟨l, r, o, o', -, -, hmove⟩ | ⟨-, hout⟩
  · exact hmove.manages.peak
  · exact Outside.peak hout

/-- **The peak is the greatest count that there was.** -/
theorem isGreatest_peak
    {visited : List (Crowd (World σ) Wanted (PoolRead τ) (Except Failure (List UInt8)))}
    (h : Crowd.Path (rules s shift) (Crowd.empty w₀) visited c) (h₀ : w₀.pool = Pool.fresh)
    (hpeak : w₀.counters.peakConns = 0) :
    IsGreatest { n | ∃ v ∈ visited, v.world.pool.live = n } c.world.counters.peakConns ∧
      c.world.pool.live ≤ c.world.counters.peakConns := by
  induction h with
  | nil =>
    have hlive : w₀.pool.live = w₀.counters.peakConns := by
      rw [h₀, hpeak]
      rfl
    refine ⟨⟨⟨_, List.mem_singleton_self _, hlive⟩, ?_⟩, hlive.le⟩
    rintro n ⟨v, hv, rfl⟩
    rw [List.mem_singleton.1 hv]
    exact hlive.le
  | @snoc visited c c' hp hs ih =>
    obtain ⟨⟨⟨v, hv, hlast⟩, hmax⟩, hle⟩ := ih
    have hpeak' := (peak_of_step hs).eq_max hle
    refine ⟨⟨?_, ?_⟩, ?_⟩
    · -- the greatest count so far, or the one that is reached now
      rcases Nat.le_total c'.world.pool.live c.world.counters.peakConns with hl | hl
      · exact ⟨v, List.mem_cons_of_mem _ hv, by rw [hpeak', Nat.max_eq_left hl, hlast]⟩
      · exact ⟨c', List.mem_cons_self, by rw [hpeak', Nat.max_eq_right hl]⟩
    · rintro n ⟨u, hu, rfl⟩
      rw [hpeak']
      rcases List.mem_cons.1 hu with rfl | hu
      · exact Nat.le_max_right _ _
      · exact Nat.le_trans (hmax ⟨u, hu, rfl⟩) (Nat.le_max_left _ _)
    · rw [hpeak']
      exact Nat.le_max_right _ _

end PoolRead

end RemoteFile
