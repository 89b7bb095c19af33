import RemoteFile.Proofs.Crowd
import RemoteFile.Proofs.Fetch.Turn
import RemoteFile.Proofs.Operation.Acts

/-!
# Crowds of attempts

A task that reads makes at most one attempt at a time. `Fetch.Acts` says what one step of such a
task does to the world and to its attempt, whatever else the task keeps in mind: the attempt takes a
turn, or begins, or is dropped, and after that something is arranged for the next one. `Fetch.Move`
says the same of the pool and the transport only. Where a crowd consists of such tasks, a statement
about the world and the attempts under way has to be checked for these steps only.

Main statements:

* `Fetch.Acts.rule` : what is true of turns of attempts, and kept by what is arranged, is true of
  every step of a task.
* `Crowd.Step.acted`, `Crowd.Step.moved` : a step of a crowd moves the attempt of one task, or comes
  from outside.
* `Crowd.Reachable.attempts` : what every move keeps holds in every crowd that can be reached.
-/

namespace RemoteFile

variable {σ τ : Type}

/-- What one step of a task does: its attempt acts, or something is arranged. -/
def Fetch.Acts (s : Setting σ τ) (w : World σ) (o : Option (Fetch τ)) (w' : World σ)
    (o' : Option (Fetch τ)) : Prop :=
  ∃ offset len, Operation.Acts (Fetch.attempts s offset len) w o w' o'

namespace Fetch.Acts

variable {s : Setting σ τ} {w w₁ w' : World σ} {o o' : Option (Fetch τ)}

theorem aside (s : Setting σ τ) (hw : w.Arranges w') : Acts s w none w' none :=
  ⟨0, 0, .aside hw⟩

theorem arranges (h : Acts s w o w₁ none) (hw : w₁.Arranges w') : Acts s w o w' none := by
  obtain ⟨offset, len, hacts⟩ := h
  exact ⟨offset, len, hacts.arranges hw⟩

/-- What is true of the turns of attempts, and kept by what is arranged, is true of every step of a
task. -/
theorem rule {M : World σ → Option (Fetch τ) → World σ → Option (Fetch τ) → Prop}
    (h : Acts s w o w' o') (hrest : ∀ w, M w none w none)
    (hbegin : ∀ w f, f.phase = .looking → M w none w (some f))
    (hstep : ∀ {f : Fetch τ} {t w w'}, f.step s w = (t, w') → M w (some f) w' t.next?)
    (hdrop : ∀ f w, M w (some f) (f.drop s w) none)
    (harrange : ∀ {w o w₁ o' w'}, M w o w₁ o' → w₁.Arranges w' → M w o w' o') : M w o w' o' := by
  obtain ⟨offset, len, hacts⟩ := h
  cases hacts with
  | aside hw => exact harrange (hrest w) hw
  | begins number source hw => exact harrange (hbegin w _ rfl) hw
  | goesOn h ha =>
    rw [← ha]
    exact hstep h
  | ends h hw => exact harrange (hstep h) hw
  | dropped hw => exact harrange (hdrop _ w) hw

end Fetch.Acts

/-- What one step of a task does to the world and to the attempt that the task makes. -/
inductive Fetch.Move (s : Setting σ τ) (w : World σ) :
    Option (Fetch τ) → World σ → Option (Fetch τ) → Prop
  /-- There is no attempt. -/
  | aside {w' : World σ} (hw : w.Beside w') : Move s w none w' none
  /-- An attempt begins. -/
  | begins {f : Fetch τ} {w' : World σ} (hf : f.phase = .looking) (hw : w.Beside w') :
      Move s w none w' (some f)
  /-- The attempt takes a turn and goes on. -/
  | goesOn {f f' : Fetch τ} {t : Turn (Fetch τ) (Except Failure (List UInt8))} {w' : World σ}
      (h : f.step s w = (t, w')) (ht : t.next? = some f') : Move s w (some f) w' (some f')
  /-- The attempt takes a turn and ends. -/
  | ends {f : Fetch τ} {b : Except Failure (List UInt8)} {w₁ w' : World σ}
      (h : f.step s w = (.done b, w₁)) (hw : w₁.Beside w') : Move s w (some f) w' none
  /-- The attempt is dropped. -/
  | dropped {f : Fetch τ} {w' : World σ} (hw : (f.drop s w).Beside w') :
      Move s w (some f) w' none

theorem Fetch.Acts.move {s : Setting σ τ} {w w' : World σ} {o o' : Option (Fetch τ)}
    (h : Acts s w o w' o') : Move s w o w' o' := by
  obtain ⟨offset, len, hacts⟩ := h
  cases hacts with
  | aside hw => exact .aside hw.beside
  | begins number source hw => exact .begins rfl hw.beside
  | goesOn h ha => exact .goesOn h ha
  | ends h hw => exact .ends h hw.beside
  | dropped hw => exact .dropped hw.beside

namespace Crowd

variable {κ α β : Type}

/-- The attempts that are under way. -/
def attempts (fetch? : α → Option (Fetch τ)) (c : Crowd (World σ) κ α β) : List (Fetch τ) :=
  c.tasks.filterMap fun x => fetch? x.2

/-- Every task makes at most one attempt at a time, which `fetch?` finds, and touches the pool and
the transport by that attempt only. -/
structure Rules.Attempting (m : Rules (World σ) κ α β) (s : Setting σ τ)
    (fetch? : α → Option (Fetch τ)) : Prop where
  /-- A task begins without an attempt. -/
  start : ∀ k, fetch? (m.start k) = none
  /-- A turn is a move. -/
  turn : ∀ {a : α} {w w' : World σ} {t : Turn α β}, m.actor.step a w = (t, w') →
    Fetch.Move s w (fetch? a) w' (t.next?.bind fetch?)
  /-- To be dropped is a move. -/
  drop : ∀ (a : α) (w : World σ), Fetch.Move s w (fetch? a) (m.actor.drop a w) none

/-- Every task makes at most one attempt at a time, which `fetch?` finds, and all that it does
besides is to arrange for the next one. -/
structure Rules.Acting (m : Rules (World σ) κ α β) (s : Setting σ τ)
    (fetch? : α → Option (Fetch τ)) : Prop where
  /-- A task begins without an attempt. -/
  start : ∀ k, fetch? (m.start k) = none
  /-- A turn is what the task does. -/
  turn : ∀ {a : α} {w w' : World σ} {t : Turn α β}, m.actor.step a w = (t, w') →
    Fetch.Acts s w (fetch? a) w' (t.next?.bind fetch?)
  /-- So is to be dropped. -/
  drop : ∀ (a : α) (w : World σ), Fetch.Acts s w (fetch? a) (m.actor.drop a w) none

variable {s : Setting σ τ} {fetch? : α → Option (Fetch τ)} {m : Rules (World σ) κ α β}
  {c c' : Crowd (World σ) κ α β}

theorem Rules.Acting.attempting (hm : m.Acting s fetch?) : m.Attempting s fetch? :=
  ⟨hm.start, fun h => (hm.turn h).move, fun a w => (hm.drop a w).move⟩

theorem attempts_split (w : World σ) (l r : List (κ × α)) (k : κ) (a : α) (rs : List (κ × β)) :
    attempts fetch? (⟨w, l ++ (k, a) :: r, rs⟩ : Crowd (World σ) κ α β) =
      l.filterMap (fun x => fetch? x.2) ++ (fetch? a).toList ++
        r.filterMap fun x => fetch? x.2 := by
  simp only [attempts, List.filterMap_append, List.filterMap_cons, List.append_assoc]
  cases fetch? a <;> rfl

/-- What is true of every turn of a task, and of dropping it, is true of a step of a crowd: it moves
at most one attempt, which may begin or end with it, or the world changes from outside. -/
theorem Step.related {M : World σ → Option (Fetch τ) → World σ → Option (Fetch τ) → Prop}
    (hstart : ∀ k, fetch? (m.start k) = none) (hrest : ∀ w, M w none w none)
    (hturn : ∀ {a : α} {w w' : World σ} {t : Turn α β}, m.actor.step a w = (t, w') →
      M w (fetch? a) w' (t.next?.bind fetch?))
    (hdrop : ∀ (a : α) (w : World σ), M w (fetch? a) (m.actor.drop a w) none) (h : Step m c c') :
    (∃ l r o o', c.attempts fetch? = l ++ o.toList ++ r ∧ c'.attempts fetch? = l ++ o'.toList ++ r ∧
      M c.world o c'.world o') ∨
    (c'.attempts fetch? = c.attempts fetch? ∧ m.outside c.world c'.world) := by
  cases h with
  | join w ts rs k =>
    -- a task that joins makes no attempt yet, so that nothing moves
    refine .inl ⟨ts.filterMap fun x => fetch? x.2, [], none, none, by simp [attempts], ?_, hrest w⟩
    simp [attempts, hstart]
  | turn l r rs k h ht =>
    refine .inl ⟨_, _, _, _, attempts_split _ l r k _ rs, attempts_split _ l r k _ rs, ?_⟩
    have hmove := hturn h
    rw [ht] at hmove
    exact hmove
  | finish l r rs k h =>
    refine .inl ⟨_, _, _, none, attempts_split _ l r k _ rs, ?_, hturn h⟩
    simp [attempts]
  | drop w a l r rs k =>
    refine .inl ⟨_, _, _, none, attempts_split _ l r k _ rs, ?_, hdrop a w⟩
    simp [attempts]
  | outside ts rs h => exact .inr ⟨rfl, h⟩

/-- **What a step of a crowd does.**  It moves at most one attempt, or the world changes from
outside. -/
theorem Step.moved (hm : m.Attempting s fetch?) (h : Step m c c') :
    (∃ l r o o', c.attempts fetch? = l ++ o.toList ++ r ∧ c'.attempts fetch? = l ++ o'.toList ++ r ∧
      Fetch.Move s c.world o c'.world o') ∨
    (c'.attempts fetch? = c.attempts fetch? ∧ m.outside c.world c'.world) :=
  h.related hm.start (fun w => .aside (.refl w)) hm.turn hm.drop

/-- **What a step of a crowd does, with all that is arranged besides.** -/
theorem Step.acted (hm : m.Acting s fetch?) (h : Step m c c') :
    (∃ l r o o', c.attempts fetch? = l ++ o.toList ++ r ∧ c'.attempts fetch? = l ++ o'.toList ++ r ∧
      Fetch.Acts s c.world o c'.world o') ∨
    (c'.attempts fetch? = c.attempts fetch? ∧ m.outside c.world c'.world) :=
  h.related hm.start (fun w => .aside s (.refl w)) hm.turn hm.drop

/-- What holds at first, and is kept by every move and from outside, holds in every crowd that can
be reached. -/
theorem Reachable.attempts {w₀ : World σ} {I : World σ → List (Fetch τ) → Prop}
    (hm : m.Attempting s fetch?) (h : Reachable m (empty w₀) c) (h₀ : I w₀ [])
    (hmove : ∀ {l r : List (Fetch τ)} {o o' : Option (Fetch τ)} {w w' : World σ},
      I w (l ++ o.toList ++ r) → Fetch.Move s w o w' o' → I w' (l ++ o'.toList ++ r))
    (hout : ∀ {fs : List (Fetch τ)} {w w' : World σ}, I w fs → m.outside w w' → I w' fs) :
    I c.world (c.attempts fetch?) := by
  refine h.invariant (I := fun c => I c.world (c.attempts fetch?)) h₀ fun c c' hc hs => ?_
  rcases hs.moved hm with ⟨l, r, o, o', hl, hl', hmv⟩ | ⟨heq, hout'⟩
  · rw [hl] at hc
    rw [hl']
    exact hmove hc hmv
  · rw [heq]
    exact hout hc hout'

end Crowd

end RemoteFile
