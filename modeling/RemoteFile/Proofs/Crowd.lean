import Mathlib.Logic.Relation
import RemoteFile.Task

/-!
# Crowds

Tasks that go on at the same time in one world. A `Crowd` is the world together with what was
asked for and how far each task has come. In one step a task joins, takes a turn or is dropped, or
the world changes from outside. No order is preferred, so that a statement about every crowd that
can be reached is one about every interleaving of the turns.

Main statements:

* `Crowd.Reachable.invariant` : what every step keeps holds in every crowd that can be reached.
* `Crowd.Reachable.separate` : the same for what the world and each task keep by themselves, with
  what follows for the results.
* `Crowd.reachable_of_play` : a crowd that is played out by given deeds can be reached.
-/

namespace RemoteFile

/-- The task as it goes on after a turn, if it does. -/
def Turn.next? {α β : Type} : Turn α β → Option α
  | .moved a | .waits a _ => some a
  | .done _ => none

@[simp]
theorem Turn.next?_moved {α β : Type} (a : α) : (moved a : Turn α β).next? = some a := rfl

@[simp]
theorem Turn.next?_waits {α β : Type} (a : α) (wake : Option Nat) :
    (waits a wake : Turn α β).next? = some a := rfl

@[simp]
theorem Turn.next?_done {α β : Type} (b : β) : (done b : Turn α β).next? = none := rfl

/-- Tasks `α` with results `β` in a world `ω`, each asked for by a `κ`. -/
structure Crowd (ω κ α β : Type) where
  /-- What the tasks share. -/
  world : ω
  /-- What goes on, each task with what was asked for. -/
  tasks : List (κ × α)
  /-- What has come of the tasks that have ended, the latest first. -/
  results : List (κ × β)

namespace Crowd

variable {ω κ α β : Type}

/-- What can happen in a crowd. -/
structure Rules (ω κ α β : Type) where
  /-- How the tasks act. -/
  actor : Actor ω α β
  /-- The task that is asked for. -/
  start : κ → α
  /-- How the world can change without them. -/
  outside : ω → ω → Prop

/-- Nobody has asked for anything. -/
def empty (w : ω) : Crowd ω κ α β := ⟨w, [], []⟩

/-- One step of a crowd. -/
inductive Step (m : Rules ω κ α β) : Crowd ω κ α β → Crowd ω κ α β → Prop
  /-- A task joins. -/
  | join (w : ω) (ts : List (κ × α)) (rs : List (κ × β)) (k : κ) :
      Step m ⟨w, ts, rs⟩ ⟨w, ts ++ [(k, m.start k)], rs⟩
  /-- A task takes a turn and goes on. -/
  | turn {w w' : ω} {a a' : α} {t : Turn α β} (l r : List (κ × α)) (rs : List (κ × β)) (k : κ)
      (h : m.actor.step a w = (t, w')) (ht : t.next? = some a') :
      Step m ⟨w, l ++ (k, a) :: r, rs⟩ ⟨w', l ++ (k, a') :: r, rs⟩
  /-- A task takes a turn and ends. -/
  | finish {w w' : ω} {a : α} {b : β} (l r : List (κ × α)) (rs : List (κ × β)) (k : κ)
      (h : m.actor.step a w = (.done b, w')) :
      Step m ⟨w, l ++ (k, a) :: r, rs⟩ ⟨w', l ++ r, (k, b) :: rs⟩
  /-- A task is dropped. -/
  | drop (w : ω) (a : α) (l r : List (κ × α)) (rs : List (κ × β)) (k : κ) :
      Step m ⟨w, l ++ (k, a) :: r, rs⟩ ⟨m.actor.drop a w, l ++ r, rs⟩
  /-- The world changes without the tasks. -/
  | outside {w w' : ω} (ts : List (κ × α)) (rs : List (κ × β)) (h : m.outside w w') :
      Step m ⟨w, ts, rs⟩ ⟨w', ts, rs⟩

/-- A crowd can be reached from another one. -/
def Reachable (m : Rules ω κ α β) (c₀ c : Crowd ω κ α β) : Prop :=
  Relation.ReflTransGen (Step m) c₀ c

/-- A way from one crowd to another, with the crowds that it visits, the latest first. -/
inductive Path (m : Rules ω κ α β) (c₀ : Crowd ω κ α β) :
    List (Crowd ω κ α β) → Crowd ω κ α β → Prop
  /-- Nothing happens. -/
  | nil : Path m c₀ [c₀] c₀
  /-- One more step. -/
  | snoc {visited : List (Crowd ω κ α β)} {c c' : Crowd ω κ α β} :
      Path m c₀ visited c → Step m c c' → Path m c₀ (c' :: visited) c'

/-- What the world, each task and each result keep by themselves: `W` says which worlds are good and
`E` how they go on, `T` which tasks are good in a world, and `R` which results are good. -/
structure Rules.Separate (m : Rules ω κ α β) (W : ω → Prop) (E : ω → ω → Prop)
    (T : ω → κ → α → Prop) (R : κ → β → Prop) : Prop where
  /-- A task that is asked for is good. -/
  start : ∀ w k, T w k (m.start k)
  /-- It stays good while the world goes on. -/
  keep : ∀ {w w' k a}, T w k a → E w w' → T w' k a
  /-- A turn keeps the world and the task good, or has a good result. -/
  turn : ∀ {w w' k a t}, W w → T w k a → m.actor.step a w = (t, w') →
    W w' ∧ E w w' ∧ (∀ a', t.next? = some a' → T w' k a') ∧ ∀ b, t = .done b → R k b
  /-- So does dropping a task. -/
  drop : ∀ {w k a}, W w → T w k a → W (m.actor.drop a w) ∧ E w (m.actor.drop a w)
  /-- So does what comes from outside. -/
  outside : ∀ {w w'}, W w → m.outside w w' → W w' ∧ E w w'

variable {m : Rules ω κ α β} {c₀ c c' : Crowd ω κ α β}

namespace Reachable

theorem refl (c : Crowd ω κ α β) : Reachable m c c := Relation.ReflTransGen.refl

theorem tail (h : Reachable m c₀ c) (hs : Step m c c') : Reachable m c₀ c' :=
  Relation.ReflTransGen.tail h hs

/-- What holds at first and is kept by every step holds in every crowd that can be reached. -/
theorem invariant {I : Crowd ω κ α β → Prop} (h : Reachable m c₀ c) (h₀ : I c₀)
    (hstep : ∀ c c', I c → Step m c c' → I c') : I c := by
  induction h with
  | refl => exact h₀
  | tail _ hs ih => exact hstep _ _ ih hs

/-- **What the world, each task and each result keep by themselves.**  If every turn that begins in
a good world with a good task ends in a good world, with a good task or a good result, then
everything is good in every crowd that can be reached. -/
theorem separate {W : ω → Prop} {E : ω → ω → Prop} {T : ω → κ → α → Prop} {R : κ → β → Prop}
    {w₀ : ω} (hm : m.Separate W E T R) (h : Reachable m (empty w₀) c) (h₀ : W w₀) :
    W c.world ∧ (∀ x ∈ c.tasks, T c.world x.1 x.2) ∧ ∀ x ∈ c.results, R x.1 x.2 := by
  refine h.invariant (I := fun c => W c.world ∧ (∀ x ∈ c.tasks, T c.world x.1 x.2) ∧
    ∀ x ∈ c.results, R x.1 x.2) ⟨h₀, by simp [empty], by simp [empty]⟩ ?_
  rintro c c' ⟨hw, ht, hr⟩ hs
  cases hs with
  | join w ts rs k =>
    refine ⟨hw, fun x hx => ?_, hr⟩
    rcases List.mem_append.1 hx with hx | hx
    · exact ht x hx
    · rw [List.mem_singleton.1 hx]
      exact hm.start w k
  | turn l r rs k hstep hnext =>
    obtain ⟨hw', he, hgo, -⟩ := hm.turn hw (ht (k, _) (by simp)) hstep
    refine ⟨hw', fun x hx => ?_, hr⟩
    simp only [List.mem_append, List.mem_cons] at hx
    -- the task that took the turn is told apart from those before and after it
    rcases hx with hx | rfl | hx
    · exact hm.keep (ht x (by simp [hx])) he
    · exact hgo _ hnext
    · exact hm.keep (ht x (by simp [hx])) he
  | finish l r rs k hstep =>
    obtain ⟨hw', he, -, hend⟩ := hm.turn hw (ht (k, _) (by simp)) hstep
    refine ⟨hw', fun x hx => hm.keep (ht x ?_) he, fun x hx => ?_⟩
    · simp only [List.mem_append, List.mem_cons] at hx ⊢
      exact hx.imp_right Or.inr
    · rcases List.mem_cons.1 hx with rfl | hx
      · exact hend _ rfl
      · exact hr x hx
  | drop w a l r rs k =>
    obtain ⟨hw', he⟩ := hm.drop hw (ht (k, a) (by simp))
    refine ⟨hw', fun x hx => hm.keep (ht x ?_) he, hr⟩
    simp only [List.mem_append, List.mem_cons] at hx ⊢
    exact hx.imp_right Or.inr
  | outside ts rs hout =>
    obtain ⟨hw', he⟩ := hm.outside hw hout
    exact ⟨hw', fun x hx => hm.keep (ht x hx) he, hr⟩

end Reachable

theorem Path.reachable {visited : List (Crowd ω κ α β)} (h : Path m c₀ visited c) :
    Reachable m c₀ c := by
  induction h with
  | nil => exact .refl _
  | snoc _ hs ih => exact ih.tail hs

/-! ### Playing out a crowd -/

/-- Something that is done in a crowd; tasks are named by their places. -/
inductive Deed (κ : Type) where
  /-- A task is asked for. -/
  | join (k : κ)
  /-- A task takes its turn. -/
  | turn (place : Nat)
  /-- A task is dropped. -/
  | drop (place : Nat)
deriving DecidableEq, Repr

/-- Does one thing; none if there is no task at that place. -/
def act (m : Rules ω κ α β) (c : Crowd ω κ α β) : Deed κ → Option (Crowd ω κ α β)
  | .join k => some { c with tasks := c.tasks ++ [(k, m.start k)] }
  | .turn i =>
    (c.tasks[i]?).map fun x =>
      match m.actor.step x.2 c.world with
      | (.moved a, w) | (.waits a _, w) => { c with world := w, tasks := c.tasks.set i (x.1, a) }
      | (.done b, w) => ⟨w, c.tasks.eraseIdx i, (x.1, b) :: c.results⟩
  | .drop i =>
    (c.tasks[i]?).map fun x =>
      { c with world := m.actor.drop x.2 c.world, tasks := c.tasks.eraseIdx i }

/-- Does several things, one after the other. -/
def play (m : Rules ω κ α β) : List (Deed κ) → Crowd ω κ α β → Option (Crowd ω κ α β)
  | [], c => some c
  | d :: ds, c => (c.act m d).bind (play m ds)

theorem eq_take_append_cons_drop {γ : Type} {l : List γ} {i : Nat} {x : γ} (h : l[i]? = some x) :
    i < l.length ∧ l = l.take i ++ x :: l.drop (i + 1) := by
  obtain ⟨hlt, hget⟩ := List.getElem?_eq_some_iff.1 h
  refine ⟨hlt, ?_⟩
  rw [← hget, ← List.drop_eq_getElem_cons hlt, List.take_append_drop]

theorem step_of_act {d : Deed κ} (h : c.act m d = some c') : Step m c c' := by
  obtain ⟨w, ts, rs⟩ := c
  cases d with
  | join k =>
    cases h
    exact .join w ts rs k
  | turn i =>
    obtain ⟨⟨k, a⟩, hi, rfl⟩ := Option.map_eq_some_iff.1 h
    obtain ⟨hlt, hts⟩ := eq_take_append_cons_drop hi
    rcases hstep : m.actor.step a w with ⟨t, w'⟩
    -- what `act` does to the list of tasks by number is what `Step` does around the task
    cases t with
    | moved a' =>
      have := Step.turn (ts.take i) (ts.drop (i + 1)) rs k hstep (Turn.next?_moved a')
      rw [← hts] at this
      simpa [hstep, List.set_eq_take_append_cons_drop, hlt] using this
    | waits a' wake =>
      have := Step.turn (ts.take i) (ts.drop (i + 1)) rs k hstep (Turn.next?_waits a' wake)
      rw [← hts] at this
      simpa [hstep, List.set_eq_take_append_cons_drop, hlt] using this
    | done b =>
      have := Step.finish (ts.take i) (ts.drop (i + 1)) rs k hstep
      rw [← hts] at this
      simpa [hstep, List.eraseIdx_eq_take_drop_succ] using this
  | drop i =>
    obtain ⟨⟨k, a⟩, hi, rfl⟩ := Option.map_eq_some_iff.1 h
    obtain ⟨-, hts⟩ := eq_take_append_cons_drop hi
    have := Step.drop (m := m) w a (ts.take i) (ts.drop (i + 1)) rs k
    rw [← hts] at this
    simpa [List.eraseIdx_eq_take_drop_succ] using this

theorem path_of_play {visited : List (Crowd ω κ α β)} {ds : List (Deed κ)}
    (hp : Path m c₀ visited c) (h : c.play m ds = some c') :
    ∃ visited', Path m c₀ visited' c' := by
  induction ds generalizing c visited with
  | nil =>
    cases h
    exact ⟨visited, hp⟩
  | cons d ds ih =>
    obtain ⟨c₁, hact, hplay⟩ := Option.bind_eq_some_iff.1 h
    exact ih (hp.snoc (step_of_act hact)) hplay

/-- What is played out can be reached, and looks as it is computed. -/
theorem reachable_of_play {γ : Type} {ds : List (Deed κ)} (view : Crowd ω κ α β → γ) {v : γ}
    (h : (c.play m ds).map view = some v) : ∃ c', Reachable m c c' ∧ view c' = v := by
  obtain ⟨c', hplay, hv⟩ := Option.map_eq_some_iff.1 h
  obtain ⟨visited, hp⟩ := path_of_play .nil hplay
  exact ⟨c', hp.reachable, hv⟩

end Crowd

end RemoteFile
