import RemoteFile.Proofs.Crowd

/-!
# Traces of crowds

What happens in a step of a crowd, as data: a task joins, takes a turn that comes to something, or
is dropped, or the world changes from outside. A trace lists what has happened, the latest first,
so that whatever is told of the past is a function of the trace.

Main statements:

* `Crowd.step_iff_exists_does` : a step is something that happens.
* `Crowd.reachable_iff_exists_trace` : a crowd can be reached if there is a trace that leads to it.
* `Crowd.Trace.exists_onset` : what is true of a task that was not so at first became true in a turn
  of the task and has been true ever since.
* `Crowd.trace_of_narrate` : what is played out is told by its trace.
-/

namespace RemoteFile

/-- The result of a turn, if the task has ended with it. -/
def Turn.result? {α β : Type} : Turn α β → Option β
  | .moved _ | .waits _ _ => none
  | .done b => some b

@[simp]
theorem Turn.result?_moved {α β : Type} (a : α) : (moved a : Turn α β).result? = none := rfl

@[simp]
theorem Turn.result?_waits {α β : Type} (a : α) (wake : Option Nat) :
    (waits a wake : Turn α β).result? = none := rfl

@[simp]
theorem Turn.result?_done {α β : Type} (b : β) : (done b : Turn α β).result? = some b := rfl

namespace Crowd

variable {ω κ α β : Type}

/-- What happens in one step of a crowd. -/
inductive Happening (κ α β : Type) where
  /-- A task joins. -/
  | joins (k : κ)
  /-- A task takes a turn, which comes to this. -/
  | turns (k : κ) (a : α) (t : Turn α β)
  /-- A task is dropped. -/
  | drops (k : κ) (a : α)
  /-- The world changes from outside. -/
  | outside

/-- One step of a crowd, with what happens in it. -/
inductive Does (m : Rules ω κ α β) : Crowd ω κ α β → Happening κ α β → Crowd ω κ α β → Prop
  /-- A task joins. -/
  | joins (w : ω) (ts : List (κ × α)) (rs : List (κ × β)) (k : κ) :
      Does m ⟨w, ts, rs⟩ (.joins k) ⟨w, ts ++ [(k, m.start k)], rs⟩
  /-- A task takes a turn. -/
  | turns {w w' : ω} {a : α} {t : Turn α β} (l r : List (κ × α)) (rs : List (κ × β)) (k : κ)
      (h : m.actor.step a w = (t, w')) :
      Does m ⟨w, l ++ (k, a) :: r, rs⟩ (.turns k a t)
        ⟨w', l ++ (t.next?.map (k, ·)).toList ++ r, (t.result?.map (k, ·)).toList ++ rs⟩
  /-- A task is dropped. -/
  | drops (w : ω) (a : α) (l r : List (κ × α)) (rs : List (κ × β)) (k : κ) :
      Does m ⟨w, l ++ (k, a) :: r, rs⟩ (.drops k a) ⟨m.actor.drop a w, l ++ r, rs⟩
  /-- The world changes from outside. -/
  | outside {w w' : ω} (ts : List (κ × α)) (rs : List (κ × β)) (h : m.outside w w') :
      Does m ⟨w, ts, rs⟩ .outside ⟨w', ts, rs⟩

/-- What has happened on the way from one crowd to another one, the latest first. -/
inductive Trace (m : Rules ω κ α β) (c₀ : Crowd ω κ α β) :
    List (Happening κ α β) → Crowd ω κ α β → Prop
  /-- Nothing has happened. -/
  | nil : Trace m c₀ [] c₀
  /-- One more thing happens. -/
  | snoc {hs : List (Happening κ α β)} {c c' : Crowd ω κ α β} {e : Happening κ α β} :
      Trace m c₀ hs c → Does m c e c' → Trace m c₀ (e :: hs) c'

variable {m : Rules ω κ α β} {c₀ c c' : Crowd ω κ α β} {e : Happening κ α β}
  {hs hs' : List (Happening κ α β)}

theorem Does.step (h : Does m c e c') : Step m c c' := by
  cases h with
  | joins w ts rs k => exact .join w ts rs k
  | @turns w w' a t l r rs k h =>
    cases t with
    | moved a' => simpa using Step.turn l r rs k h (Turn.next?_moved a')
    | waits a' wake => simpa using Step.turn l r rs k h (Turn.next?_waits a' wake)
    | done b => simpa using Step.finish l r rs k h
  | drops w a l r rs k => exact .drop w a l r rs k
  | outside ts rs h => exact .outside ts rs h

/-- A step is something that happens. -/
theorem step_iff_exists_does : Step m c c' ↔ ∃ e, Does m c e c' := by
  constructor
  · intro h
    cases h with
    | join w ts rs k => exact ⟨_, .joins w ts rs k⟩
    | @turn w w' a a' t l r rs k h ht =>
      have hr : t.result? = none := by cases t <;> simp_all
      have hd := Does.turns l r rs k h
      rw [ht, hr] at hd
      exact ⟨_, by simpa using hd⟩
    | finish l r rs k h => exact ⟨_, by simpa using Does.turns l r rs k h⟩
    | drop w a l r rs k => exact ⟨_, .drops w a l r rs k⟩
    | outside ts rs h => exact ⟨_, .outside ts rs h⟩
  · rintro ⟨e, h⟩
    exact h.step

theorem Trace.reachable (h : Trace m c₀ hs c) : Reachable m c₀ c := by
  induction h with
  | nil => exact .refl _
  | snoc _ hd ih => exact ih.tail hd.step

/-- A crowd can be reached if and only if there is a trace that leads to it. -/
theorem reachable_iff_exists_trace : Reachable m c₀ c ↔ ∃ hs, Trace m c₀ hs c := by
  constructor
  · intro h
    refine h.invariant (I := fun c => ∃ hs, Trace m c₀ hs c) ⟨[], .nil⟩ ?_
    rintro c c' ⟨hs, ht⟩ hstep
    obtain ⟨e, hd⟩ := step_iff_exists_does.1 hstep
    exact ⟨e :: hs, ht.snoc hd⟩
  · rintro ⟨hs, h⟩
    exact h.reachable

theorem Trace.append (h : Trace m c₀ hs c) (h' : Trace m c hs' c') :
    Trace m c₀ (hs' ++ hs) c' := by
  induction h' with
  | nil => exact h
  | snoc _ hd ih => exact ih.snoc hd

/-- What holds at first, and is kept by whatever happens, holds at the end of every trace. -/
theorem Trace.invariant {I : List (Happening κ α β) → Crowd ω κ α β → Prop}
    (h : Trace m c₀ hs c) (h₀ : I [] c₀)
    (hstep : ∀ {hs c e c'}, Trace m c₀ hs c → I hs c → Does m c e c' → I (e :: hs) c') :
    I hs c := by
  induction h with
  | nil => exact h₀
  | snoc ht hd ih => exact hstep ht ih hd

/-! ### What has been true of a task for a while -/

/-- A task `a₁` of a crowd `c₁`, asked for by `k`, has come to `a` in the crowd `c` by what has
happened since, and `P` was true of it all the time. -/
inductive Lasts (m : Rules ω κ α β) (P : α → Prop) (k : κ) (c₁ : Crowd ω κ α β) (a₁ : α) :
    List (Happening κ α β) → Crowd ω κ α β → α → Prop
  /-- Nothing has happened. -/
  | nil (hmem : (k, a₁) ∈ c₁.tasks) (hP : P a₁) : Lasts m P k c₁ a₁ [] c₁ a₁
  /-- Something happens besides. -/
  | waits {hs : List (Happening κ α β)} {c c' : Crowd ω κ α β} {e : Happening κ α β} {a : α}
      (h : Lasts m P k c₁ a₁ hs c a) (hd : Does m c e c') (hmem : (k, a) ∈ c'.tasks) :
      Lasts m P k c₁ a₁ (e :: hs) c' a
  /-- The task takes a turn. -/
  | turns {hs : List (Happening κ α β)} {c c' : Crowd ω κ α β} {a a' : α} {t : Turn α β}
      (h : Lasts m P k c₁ a₁ hs c a) (hd : Does m c (.turns k a t) c') (ht : t.next? = some a')
      (hmem : (k, a') ∈ c'.tasks) (hP : P a') : Lasts m P k c₁ a₁ (.turns k a t :: hs) c' a'

variable {P : α → Prop} {k : κ} {a a₁ : α} {c₁ : Crowd ω κ α β}

theorem Lasts.trace (h : Lasts m P k c₁ a₁ hs c a) : Trace m c₁ hs c := by
  induction h with
  | nil => exact .nil
  | waits _ hd _ ih | turns _ hd _ _ _ ih => exact ih.snoc hd

theorem Lasts.first (h : Lasts m P k c₁ a₁ hs c a) : P a₁ := by
  induction h with
  | nil _ hP => exact hP
  | waits _ _ _ ih | turns _ _ _ _ _ ih => exact ih

theorem Lasts.last (h : Lasts m P k c₁ a₁ hs c a) : P a := by
  induction h with
  | nil _ hP => exact hP
  | waits _ _ _ ih => exact ih
  | turns _ _ _ _ hP _ => exact hP

/-- In a turn of a task that was asked for by `k` something has become true of it, which has been so
ever since: `c₂` is the crowd right after that turn, and the task is `a` by now. -/
inductive Onset (m : Rules ω κ α β) (P : α → Prop) (k : κ) (c₀ : Crowd ω κ α β) :
    List (Happening κ α β) → Crowd ω κ α β → Crowd ω κ α β → α → Prop
  /-- It was not true before the turn. -/
  | intro {after before : List (Happening κ α β)} {c₁ c₂ c : Crowd ω κ α β} {a₀ a₁ a : α}
      {t : Turn α β} (ht : Trace m c₀ before c₁) (hd : Does m c₁ (.turns k a₀ t) c₂)
      (hnot : ¬ P a₀) (hnext : t.next? = some a₁) (h : Lasts m P k c₂ a₁ after c a) :
      Onset m P k c₀ (after ++ .turns k a₀ t :: before) c₂ c a

variable {c₂ : Crowd ω κ α β}

theorem Onset.waits (h : Onset m P k c₀ hs c₂ c a) (hd : Does m c e c')
    (hmem : (k, a) ∈ c'.tasks) : Onset m P k c₀ (e :: hs) c₂ c' a := by
  cases h with
  | intro ht hbegin hnot hnext h => exact .intro ht hbegin hnot hnext (h.waits hd hmem)

theorem Onset.turns {a' : α} {t : Turn α β} (h : Onset m P k c₀ hs c₂ c a)
    (hd : Does m c (.turns k a t) c') (ht : t.next? = some a') (hmem : (k, a') ∈ c'.tasks)
    (hP : P a') : Onset m P k c₀ (.turns k a t :: hs) c₂ c' a' := by
  cases h with
  | intro htrace hbegin hnot hnext h =>
    exact .intro htrace hbegin hnot hnext (h.turns hd ht hmem hP)

/-- **What is true of a task began with one of its turns.**  If something is true of a task that is
not true of any task that joins, then it became true in a turn of the task and has been so ever
since. -/
theorem Trace.exists_onset {w₀ : ω} (h : Trace m (empty w₀) hs c) (hstart : ∀ k, ¬ P (m.start k))
    (hmem : (k, a) ∈ c.tasks) (hP : P a) : ∃ c₂, Onset m P k (empty w₀) hs c₂ c a := by
  induction h generalizing k a with
  | nil => cases hmem
  | @snoc hs c c' e htrace hd ih =>
    -- a task that was there before, and of which it was true, only has to be waited for
    have hkeep : (k, a) ∈ c.tasks → ∃ c₂, Onset m P k (empty w₀) (e :: hs) c₂ c' a := by
      intro hold
      obtain ⟨c₂, honset⟩ := ih hold hP
      exact ⟨c₂, honset.waits hd hmem⟩
    have hd' := hd
    cases hd' with
    | joins w ts rs k' =>
      rcases List.mem_append.1 hmem with hold | hnew
      · exact hkeep hold
      · cases List.mem_singleton.1 hnew
        exact absurd hP (hstart k)
    | @turns w w' a₀ t l r rs k' hstep =>
      have hmem' := hmem
      simp only [List.mem_append, Option.mem_toList, Option.map_eq_some_iff] at hmem'
      rcases hmem' with (hl | ⟨a', hnext, heq⟩) | hr
      · exact hkeep (by simp [hl])
      · -- the task itself has taken the turn, with which it may have become true
        cases heq
        by_cases hbefore : P a₀
        · obtain ⟨c₂, honset⟩ := ih (List.mem_append_right l List.mem_cons_self) hbefore
          exact ⟨c₂, honset.turns hd hnext hmem hP⟩
        · have honset := Onset.intro htrace hd hbefore hnext (.nil hmem hP)
          exact ⟨_, honset⟩
      · exact hkeep (by simp [hr])
    | drops w a₀ l r rs k' =>
      refine hkeep ?_
      simp only [List.mem_append, List.mem_cons] at hmem ⊢
      exact hmem.imp_right Or.inr
    | outside ts rs hout => exact hkeep hmem

/-! ### Traces that are played out -/

/-- What happens when one thing is done; none if there is no task at that place. -/
def happens (m : Rules ω κ α β) (c : Crowd ω κ α β) : Deed κ → Option (Happening κ α β)
  | .join k => some (.joins k)
  | .turn i => (c.tasks[i]?).map fun x => .turns x.1 x.2 (m.actor.step x.2 c.world).1
  | .drop i => (c.tasks[i]?).map fun x => .drops x.1 x.2

/-- Does several things, and tells what has happened, the latest first. -/
def narrate (m : Rules ω κ α β) (told : List (Happening κ α β)) :
    List (Deed κ) → Crowd ω κ α β → Option (List (Happening κ α β) × Crowd ω κ α β)
  | [], c => some (told, c)
  | d :: ds, c =>
    (happens m c d).bind fun e => (c.act m d).bind fun c' => narrate m (e :: told) ds c'

theorem does_of_act {d : Deed κ} (he : happens m c d = some e) (h : c.act m d = some c') :
    Does m c e c' := by
  obtain ⟨w, ts, rs⟩ := c
  cases d with
  | join k =>
    cases he
    cases h
    exact .joins w ts rs k
  | turn i =>
    obtain ⟨⟨k, a⟩, hi, rfl⟩ := Option.map_eq_some_iff.1 h
    obtain ⟨hlt, hts⟩ := eq_take_append_cons_drop hi
    rw [happens, hi] at he
    cases he
    rcases hstep : m.actor.step a w with ⟨t, w'⟩
    have := Does.turns (ts.take i) (ts.drop (i + 1)) rs k hstep
    rw [← hts] at this
    cases t <;> simpa [hstep, List.set_eq_take_append_cons_drop, hlt,
      List.eraseIdx_eq_take_drop_succ] using this
  | drop i =>
    obtain ⟨⟨k, a⟩, hi, rfl⟩ := Option.map_eq_some_iff.1 h
    obtain ⟨-, hts⟩ := eq_take_append_cons_drop hi
    rw [happens, hi] at he
    cases he
    have := Does.drops (m := m) w a (ts.take i) (ts.drop (i + 1)) rs k
    rw [← hts] at this
    simpa [List.eraseIdx_eq_take_drop_succ] using this

/-- What is played out is told by its trace. -/
theorem trace_of_narrate {ds : List (Deed κ)} (ht : Trace m c₀ hs c)
    (h : narrate m hs ds c = some (hs', c')) : Trace m c₀ hs' c' := by
  induction ds generalizing c hs with
  | nil =>
    cases h
    exact ht
  | cons d ds ih =>
    obtain ⟨e, he, h⟩ := Option.bind_eq_some_iff.1 h
    obtain ⟨c₁, hact, h⟩ := Option.bind_eq_some_iff.1 h
    exact ih (ht.snoc (does_of_act he hact)) h

end Crowd

end RemoteFile
