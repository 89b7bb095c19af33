import RemoteFile.Proofs.Crowd.Trace

/-!
# Lives of tasks

A task of a crowd joins and takes its turns one by one, while anything may happen to the world and
to the other tasks between two of them. Its life so far is what it was in each of these turns, with
the world that it found. Tasks have no names, and so a life is followed by what the latest turn has
come to: whoever is the same and was asked for by the same goes on with it.

Main statements:

* `Crowd.Reachable.tasks` : what is true of a task at first, and kept by its turns, is true of every
  task.
* `Crowd.Does.step_of_turns` : a turn is a step of the task in the world as it is.
* `Crowd.Trace.exists_life` : every task has lived a life, and so has every one that has ended.
-/

namespace RemoteFile

namespace Crowd

variable {ω κ α β : Type} {m : Rules ω κ α β} {c c' : Crowd ω κ α β}

/-- **What is true of a task at first, and kept by its turns, is true of every task.**  Turns are
those that it takes in worlds that can be reached. -/
theorem Reachable.tasks {w₀ : ω} {T : κ → α → Prop} (h : Reachable m (empty w₀) c)
    (hstart : ∀ k, T k (m.start k))
    (hturn : ∀ {c : Crowd ω κ α β} {k : κ} {a a' : α} {t : Turn α β} {w' : ω},
      Reachable m (empty w₀) c → T k a → m.actor.step a c.world = (t, w') → t.next? = some a' →
      T k a') : ∀ x ∈ c.tasks, T x.1 x.2 := by
  induction h with
  | refl => exact fun x hx => nomatch hx
  | @tail c c' hreach hs ih =>
    cases hs with
    | join w ts rs k =>
      intro x hx
      rcases List.mem_append.1 hx with hx | hx
      · exact ih x hx
      · rw [List.mem_singleton.1 hx]
        exact hstart k
    | @turn w w' a a' t l r rs k hstep hnext =>
      have ha : T k a := ih (k, a) (by simp)
      intro x hx
      simp only [List.mem_append, List.mem_cons] at hx
      rcases hx with hx | rfl | hx
      · exact ih x (by simp [hx])
      · exact hturn hreach ha hstep hnext
      · exact ih x (by simp [hx])
    | finish l r rs k hstep | drop w a l r rs k =>
      intro x hx
      refine ih x ?_
      simp only [List.mem_append, List.mem_cons] at hx ⊢
      exact hx.imp_right Or.inr
    | outside ts rs hout => exact ih

/-- A turn is a step of the task in the world as it is. -/
theorem Does.step_of_turns {k : κ} {a : α} {t : Turn α β} (h : Does m c (.turns k a t) c') :
    m.actor.step a c.world = (t, c'.world) := by
  cases h with
  | turns l r rs k h => exact h

/-- What a task that was asked for by `k` was in the turns that it has taken, the latest first, each
with the world that it found; and what the latest of them has come to. -/
inductive Lives (m : Rules ω κ α β) (k : κ) :
    List (α × ω) → Crowd ω κ α β → Turn α β → Prop
  /-- The task joins. -/
  | joins {c c' : Crowd ω κ α β} (hd : Does m c (.joins k) c') :
      Lives m k [] c' (.moved (m.start k))
  /-- Something happens besides. -/
  | waits {xs : List (α × ω)} {c c' : Crowd ω κ α β} {t : Turn α β} {e : Happening κ α β}
      (h : Lives m k xs c t) (hd : Does m c e c') : Lives m k xs c' t
  /-- The task takes a turn. -/
  | turns {xs : List (α × ω)} {c c' : Crowd ω κ α β} {a : α} {t t' : Turn α β}
      (h : Lives m k xs c t) (ht : t.next? = some a) (hd : Does m c (.turns k a t') c') :
      Lives m k ((a, c.world) :: xs) c' t'

/-- **Every task has lived a life**, and so has every one that has ended. -/
theorem Trace.exists_life {w₀ : ω} {hs : List (Happening κ α β)}
    (h : Trace m (empty w₀) hs c) :
    (∀ x ∈ c.tasks, ∃ xs t, Lives m x.1 xs c t ∧ t.next? = some x.2) ∧
      ∀ x ∈ c.results, ∃ xs, Lives m x.1 xs c (.done x.2) := by
  induction h with
  | nil => exact ⟨fun x hx => (nomatch hx), fun x hx => (nomatch hx)⟩
  | @snoc hs c c' e _ hd ih =>
    obtain ⟨htasks, hresults⟩ := ih
    -- the lives of all others go on
    have hwaits : ∀ x ∈ c.tasks, ∃ xs t, Lives m x.1 xs c' t ∧ t.next? = some x.2 := by
      intro x hx
      obtain ⟨xs, t, hlife, hnext⟩ := htasks x hx
      exact ⟨xs, t, hlife.waits hd, hnext⟩
    have hended : ∀ x ∈ c.results, ∃ xs, Lives m x.1 xs c' (.done x.2) := by
      intro x hx
      obtain ⟨xs, hlife⟩ := hresults x hx
      exact ⟨xs, hlife.waits hd⟩
    have hd' := hd
    cases hd' with
    | joins w ts rs k =>
      refine ⟨fun x hx => ?_, hended⟩
      rcases List.mem_append.1 hx with hx | hx
      · exact hwaits x hx
      · cases List.mem_singleton.1 hx
        exact ⟨[], _, .joins hd, rfl⟩
    | @turns w w' a t l r rs k hstep =>
      obtain ⟨xs, t₀, hlife, hnext⟩ := htasks (k, a) (by simp)
      have hturn := hlife.turns hnext hd
      constructor
      · intro x hx
        simp only [List.mem_append, Option.mem_toList, Option.map_eq_some_iff] at hx
        rcases hx with (hx | ⟨a', ha', rfl⟩) | hx
        · exact hwaits x (by simp [hx])
        · exact ⟨_, t, hturn, ha'⟩
        · exact hwaits x (by simp [hx])
      · intro x hx
        simp only [List.mem_append, Option.mem_toList, Option.map_eq_some_iff] at hx
        rcases hx with ⟨b, hb, rfl⟩ | hx
        · cases t with
          | done b' =>
            cases hb
            exact ⟨_, hturn⟩
          | moved a' | waits a' wake => cases hb
        · exact hended x hx
    | drops w a l r rs k =>
      refine ⟨fun x hx => hwaits x ?_, hended⟩
      simp only [List.mem_append, List.mem_cons] at hx ⊢
      exact hx.imp_right Or.inr
    | outside ts rs hout => exact ⟨hwaits, hended⟩

end Crowd

end RemoteFile
