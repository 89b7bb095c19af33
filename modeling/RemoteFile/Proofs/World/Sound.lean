import RemoteFile.Proofs.Operation.Turn
import RemoteFile.Proofs.Transport.Service

/-!
# Sound worlds

Over a transport that serves an object, the world of a file is sound if every idle connection of
its pool is faithful. What a turn is to keep is the same for every kind of task: the world goes on,
the task stays good in it, and what the task yields is right.

Main statements:

* `Turn.Keeps.map` : a task that is made of another one keeps what that keeps.
* `Operation.keeps_step` : an operation keeps what its attempts keep.
* `World.Sound.separate` : what every turn keeps holds in every crowd that can be reached.
-/

namespace RemoteFile

variable {σ τ : Type} {s : Setting σ τ} {shift : σ → σ → Prop} {data : List UInt8}

/-- The transport serves the object, and every idle connection is faithful to it. -/
structure World.Sound (v : Service s.net shift data) (w : World σ) : Prop where
  /-- The transport serves the object. -/
  net : v.good w.net
  /-- Idle connections are faithful. -/
  idle : ∀ c ∈ w.pool.idle, c.Faithful data

/-- A later world is sound as well, and every request is still under way. -/
structure World.Onward (v : Service s.net shift data) (w w' : World σ) : Prop where
  /-- The transport goes on. -/
  net : v.Later w.net w'.net
  /-- Idle connections are faithful. -/
  idle : ∀ c ∈ w'.pool.idle, c.Faithful data

variable {v : Service s.net shift data} {w w₁ w' : World σ}

namespace World

theorem Onward.sound (h : w.Onward v w') : w'.Sound v := ⟨h.net.good, h.idle⟩

theorem Onward.trans (h : w.Onward v w₁) (h' : w₁.Onward v w') : w.Onward v w' :=
  ⟨h.net.trans h'.net, h'.idle⟩

theorem Sound.onward (h : w.Sound v) : w.Onward v w := ⟨.refl h.net, h.idle⟩

theorem Onward.beside (h : w.Onward v w₁) (hw : w₁.Beside w') : w.Onward v w' := by
  refine ⟨?_, ?_⟩
  · rw [hw.net]
    exact h.net
  · rw [hw.pool]
    exact h.idle

theorem Sound.sweep (h : w.Sound v) : w.Onward v (w.sweep s) := by
  refine ⟨?_, ?_⟩
  · rw [net_sweep]
    exact Service.later_closed h.net _
  · rw [pool_sweep]
    exact fun c hc => h.idle c (List.mem_filter.1 hc).1

theorem Onward.take {c : Connection} {rest : List Connection} (h : w.Onward v w₁)
    (hidle : w₁.pool.idle.Perm (c :: rest)) : c.Faithful data ∧ ∀ d ∈ rest, d.Faithful data :=
  ⟨h.idle c (hidle.mem_iff.2 List.mem_cons_self),
    fun d hd => h.idle d (hidle.mem_iff.2 (List.mem_cons_of_mem _ hd))⟩

theorem Onward.giveUp (h : w.Onward v w₁) (c : Connection) : w.Onward v (w₁.giveUp s c) :=
  ⟨h.net.trans (v.closed h.net.good), h.idle⟩

theorem Onward.freeSlot (h : w.Onward v w₁) : w.Onward v w₁.freeSlot := ⟨h.net, h.idle⟩

theorem Onward.giveBack {c : Connection} (h : w.Onward v w₁) (hc : c.Faithful data) :
    w.Onward v (w₁.giveBack s c) := by
  rcases w₁.giveBack_eq s c with ⟨heq, -⟩ | ⟨heq, -⟩ <;> rw [heq]
  · exact h.giveUp c
  · refine ⟨h.net, fun d hd => ?_⟩
    rcases List.mem_append.1 hd with hd | hd
    · exact h.idle d hd
    · rw [List.mem_singleton.1 hd]
      exact ⟨hc.bytes, hc.stop⟩

theorem Sound.closePool (h : w.Sound v) : w.Onward v (w.closePool s) := by
  refine ⟨?_, ?_⟩
  · rw [net_closePool]
    exact Service.later_closed h.net _
  · rw [pool_closePool]
    exact nofun

theorem Sound.shifted {net : σ} (h : w.Sound v) (hs : shift w.net net) :
    w.Onward v { w with net := net } :=
  ⟨v.shifted h.net hs, h.idle⟩

end World

/-- What a turn of a task is to keep: `good` says which tasks are good in a world, and `yields`
which results are right. -/
structure Turn.Keeps {α β : Type} (v : Service s.net shift data) (good : World σ → α → Prop)
    (yields : β → Prop) (w : World σ) (t : Turn α (Except Failure β)) (w' : World σ) : Prop where
  /-- The world goes on. -/
  world : w.Onward v w'
  /-- So does the task. -/
  next : ∀ a, t.next? = some a → good w' a
  /-- What it yields is right. -/
  done : ∀ b, t = .done (.ok b) → yields b

namespace Turn

variable {α β γ δ : Type} {good : World σ → α → Prop} {yields : β → Prop}
  {t : Turn α (Except Failure β)}

theorem keeps_of_next {a : α} (hw : w.Onward v w') (ht : t.next? = some a) (ha : good w' a) :
    t.Keeps v good yields w w' := by
  refine ⟨hw, fun b hb => ?_, ?_⟩
  · rw [ht] at hb
    cases hb
    exact ha
  · rintro b rfl
    cases ht

theorem keeps_error (hw : w.Onward v w') (e : Failure) :
    (done (.error e) : Turn α (Except Failure β)).Keeps v good yields w w' :=
  ⟨hw, nofun, nofun⟩

theorem keeps_ok {b : β} (hw : w.Onward v w') (hb : yields b) :
    (done (.ok b) : Turn α (Except Failure β)).Keeps v good yields w w' := by
  refine ⟨hw, nofun, fun b' hb' => ?_⟩
  cases hb'
  exact hb

/-- A task that is made of another one by `f` keeps what that keeps. -/
theorem Keeps.map {f : α → γ} {t' : Turn γ (Except Failure δ)} {good' : World σ → γ → Prop}
    {yields' : δ → Prop} (hk : t.Keeps v good yields w w₁) (hw : w₁.Beside w')
    (hnext : t'.next? = t.next?.map f) (hgood : ∀ a, good w₁ a → good' w' (f a))
    (hdone : ∀ d, t' = .done (.ok d) → ∃ b, t = .done (.ok b) ∧ (yields b → yields' d)) :
    t'.Keeps v good' yields' w w' := by
  refine ⟨hk.world.beside hw, fun c hc => ?_, fun d hd => ?_⟩
  · rw [hnext] at hc
    obtain ⟨a, ha, rfl⟩ := Option.map_eq_some_iff.1 hc
    exact hgood a (hk.next a ha)
  · obtain ⟨b, hb, hyields⟩ := hdone d hd
    exact hyields (hk.done b hb)

end Turn

namespace Operation

variable {α β : Type} {work : Attempts (World σ) α β} {o : Operation α}
  {good : World σ → α → Prop} {yields : β → Prop} {t : Turn (Operation α) (Except Failure β)}

/-- An operation is good if the attempt that is under way is. -/
def Good (good : World σ → α → Prop) (w : World σ) (o : Operation α) : Prop :=
  ∀ a, o.attempt? = some a → good w a

theorem good_of_none (h : o.attempt? = none) : o.Good good w := by
  intro a ha
  rw [h] at ha
  cases ha

theorem good_of_some {a : α} (h : o.attempt? = some a) (ha : good w a) : o.Good good w := by
  intro b hb
  rw [h] at hb
  cases hb
  exact ha

/-- **An operation keeps what its attempts keep**, if these begin well. -/
theorem keeps_step (hstart : ∀ number source, good w' (work.start number source))
    (hwork : ∀ {a ta w₁}, good w a → work.step a w = (ta, w₁) → ta.Keeps v good yields w w₁)
    (hw : w.Sound v) (ho : o.Good good w) (h : o.step s work w = (t, w')) :
    t.Keeps v (Good good) yields w w' := by
  cases turned h with
  | aside hnone hbeside hgo hend =>
    refine ⟨hw.onward.beside hbeside, fun o' ho' => ?_, fun b hb => absurd hb (hend b)⟩
    rcases hgo o' ho' with hnone' | ⟨source, hsome⟩
    · exact good_of_none hnone'
    · exact good_of_some hsome (hstart _ source)
  | goesOn hsome ha hta ht ho' =>
    have hk := hwork (ho _ hsome) ha
    exact Turn.keeps_of_next hk.world ht (good_of_some ho' (hk.next _ hta))
  | succeeds hsome ha =>
    have hk := hwork (ho _ hsome) ha
    exact Turn.keeps_ok hk.world (hk.done _ rfl)
  | fails hsome ha hbeside hgo hend =>
    have hk := hwork (ho _ hsome) ha
    exact ⟨hk.world.beside hbeside, fun o' ho' => good_of_none (hgo o' ho'),
      fun b hb => absurd hb (hend b)⟩

theorem onward_drop (hwork : ∀ a, w.Onward v (work.drop a w)) (hw : w.Sound v)
    (o : Operation α) : w.Onward v (o.drop work w) := by
  cases ho : o.attempt? with
  | none => exact hw.onward.beside (beside_drop ho w)
  | some a =>
    rw [drop_of_attempt? ho]
    exact hwork a

end Operation

/-- **What every turn keeps holds in every crowd that can be reached.**  This is the rule for tasks
that are asked for by a `κ`, and whose good states and right results depend on it. -/
theorem World.Sound.separate {κ α β : Type} {m : Crowd.Rules (World σ) κ α (Except Failure β)}
    (good : κ → World σ → α → Prop) {yields : κ → β → Prop}
    (hstart : ∀ w k, good k w (m.start k))
    (hkeep : ∀ {w w' : World σ} {k a}, good k w a → w.Onward v w' → good k w' a)
    (hturn : ∀ {w w' : World σ} {k a t}, w.Sound v → good k w a → m.actor.step a w = (t, w') →
      t.Keeps v (good k) (yields k) w w')
    (hdrop : ∀ {w : World σ} {a}, w.Sound v → w.Onward v (m.actor.drop a w))
    (hout : ∀ {w w' : World σ}, w.Sound v → m.outside w w' → w.Onward v w')
    {c : Crowd (World σ) κ α (Except Failure β)} (hw : w.Sound v)
    (h : Crowd.Reachable m (Crowd.empty w) c) :
    c.world.Sound v ∧ ∀ k b, (k, .ok b) ∈ c.results → yields k b := by
  have hm : m.Separate (Sound v) (Onward v) (fun w k => good k w)
      fun k r => ∀ b, r = .ok b → yields k b :=
    { start := hstart
      keep := hkeep
      turn := fun hw ha hstep => by
        have hk := hturn hw ha hstep
        refine ⟨hk.world.sound, hk.world, hk.next, ?_⟩
        rintro r hr b rfl
        exact hk.done b hr
      drop := fun hw _ => ⟨(hdrop hw).sound, hdrop hw⟩
      outside := fun hw hs => ⟨(hout hw hs).sound, hout hw hs⟩ }
  obtain ⟨hworld, -, hresults⟩ := h.separate hm hw
  exact ⟨hworld, fun k b hb => hresults _ hb b rfl⟩

end RemoteFile
