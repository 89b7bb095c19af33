import RemoteFile.Proofs.Pool.Books

/-!
# Conservation of connections

Along every run of a pool, what is counted agrees with what there is. The accounts of a run are
those of its steps taken together: the slots that were handed out are told by the crowds that the
run visits, and so are the idle connections that were closed together with the pool.

Main statement:

* `Crowd.settles_of_path` : a run settles its accounts.
-/

namespace RemoteFile

variable {σ τ : Type}

/-- How many idle connections are closed together with the pool, if it is closed just now. -/
def World.shutIdle (w w' : World σ) : Nat :=
  if w.pool.closed = false ∧ w'.pool.closed = true then w.pool.idle.length else 0

theorem World.shutIdle_of_closed_eq {w w' : World σ} (h : w'.pool.closed = w.pool.closed) :
    w.shutIdle w' = 0 :=
  if_neg fun hc => by
    rw [h, hc.1] at hc
    exact Bool.false_ne_true hc.2

theorem Event.unbooked_of_ofStatistics {e : Event} (h : e.ofStatistics = true) :
    (!e.isCall) = true ∧ (!e.ofClosing) = true := by
  unfold ofStatistics at h
  split at h
  · exact ⟨rfl, rfl⟩
  · cases h

theorem World.Alike.unbooked {told : Prop} {w w' : World σ} (h : w.Alike w') :
    w.Unbooked told w' :=
  .of_tells h.pool (congrArg Counters.ofConns h.counters) h.tells
    fun _ => Event.unbooked_of_ofStatistics

namespace Crowd

/-- A number for each step of a run, summed up; the run is given by what it visits, the latest
first. -/
def tally {γ : Type} (g : γ → γ → Nat) : List γ → Nat
  | [] | [_] => 0
  | c' :: c :: earlier => tally g (c :: earlier) + g c c'

variable {κ α β : Type} {m : Rules (World σ) κ α β} {s : Setting σ τ} {shift : σ → σ → Prop}
  {fetch? : α → Option (Fetch τ)} {w₀ : World σ} {c c' : Crowd (World σ) κ α β}
  {visited : List (Crowd (World σ) κ α β)}

/-- The slots that are handed out in a step. -/
def handedOut (fetch? : α → Option (Fetch τ)) (c c' : Crowd (World σ) κ α β) : Nat :=
  Fetch.total Fetch.slots (c'.attempts fetch?) - Fetch.total Fetch.slots (c.attempts fetch?)

/-- How often a slot was handed out in a run. -/
def acquired (fetch? : α → Option (Fetch τ)) (visited : List (Crowd (World σ) κ α β)) : Nat :=
  tally (handedOut fetch?) visited

/-- How many idle connections were closed together with the pool in a run. -/
def shut (visited : List (Crowd (World σ) κ α β)) : Nat :=
  tally (fun c c' => c.world.shutIdle c'.world) visited

theorem Path.exists_cons {ω : Type} {m : Rules ω κ α β} {c₀ c : Crowd ω κ α β}
    {visited : List (Crowd ω κ α β)} (h : Path m c₀ visited c) :
    ∃ earlier, visited = c :: earlier := by
  cases h with
  | nil => exact ⟨[], rfl⟩
  | @snoc visited c c' hp hs => exact ⟨visited, rfl⟩

theorem settles_outside {w w' : World σ} (h : PoolRead.Outside s shift w w')
    (hc : w.pool.closed = true → w.pool.idle = []) (hand : Hand) :
    w.Settles s.net.Discreet hand 0 (w.shutIdle w') w' hand := by
  have hsame : ∀ {w' : World σ}, w'.pool = w.pool → w'.counters = w.counters →
      w'.journal = w.journal → w.Settles s.net.Discreet hand 0 (w.shutIdle w') w' hand := by
    intro w' hpool hcounters hjournal
    rw [World.shutIdle_of_closed_eq (congrArg Pool.closed hpool)]
    exact World.settles_of_eq hpool hcounters hjournal
  cases h with
  | pass millis => exact hsame rfl rfl rfl
  | close =>
    -- a pool that is closed already has no idle connections
    have hshut : w.shutIdle (w.closePool s) = w.pool.idle.length := by
      cases hclosed : w.pool.closed with
      | true =>
        rw [World.shutIdle_of_closed_eq (by rw [World.pool_closePool, hclosed]; rfl), hc hclosed]
        rfl
      | false => exact if_pos ⟨hclosed, by rw [World.pool_closePool]; rfl⟩
    rw [hshut]
    exact w.settles_closePool s hand
  | shift net => exact hsame rfl rfl rfl

theorem settles_of_step (hm : m.Pooling s shift fetch?) (h : Step m c c')
    (hc : c.world.pool.closed = true → c.world.pool.idle = []) :
    c.world.Settles s.net.Discreet (Fetch.hands (c.attempts fetch?)) (handedOut fetch? c c')
      (c.world.shutIdle c'.world) c'.world (Fetch.hands (c'.attempts fetch?)) := by
  rcases h.acted hm.acting with ⟨l, r, o, o', hl, hl', hacts⟩ | ⟨heq, hout⟩
  · rw [World.shutIdle_of_closed_eq hacts.move.manages.closed, handedOut, hl, hl']
    exact hacts.settles.among l r
  · obtain ⟨w₁, hpool, halike⟩ := hm.outside hout
    have hshut : c.world.shutIdle c'.world = c.world.shutIdle w₁ := by
      rw [World.shutIdle, World.shutIdle, halike.pool]
    rw [hshut, handedOut, heq, Nat.sub_self]
    exact (settles_outside hpool hc _).trans (halike.unbooked.settles _)

/-- **A run settles its accounts.** -/
theorem settles_of_path (hm : m.Pooling s shift fetch?) (h : Path m (empty w₀) visited c)
    (h₀ : w₀.pool = Pool.fresh) :
    w₀.Settles s.net.Discreet ⟨0, []⟩ (acquired fetch? visited) (shut visited) c.world
      (Fetch.hands (c.attempts fetch?)) := by
  induction h with
  | nil => exact .refl _ w₀ _
  | @snoc visited c c' hp hs ih =>
    have hstep := settles_of_step hm hs (custody hm hp.reachable h₀).closed
    obtain ⟨earlier, rfl⟩ := hp.exists_cons
    exact ih.trans hstep

end Crowd

end RemoteFile
