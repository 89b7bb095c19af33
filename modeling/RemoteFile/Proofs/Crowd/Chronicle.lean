import RemoteFile.Proofs.Crowd.Trace

/-!
# Chronicles of crowds

A trace tells what has happened in a crowd. A chronicle tells besides in what world each of these
things happened, so that whatever depends on the world as it was then is a function of the
chronicle. It adds nothing to the run: every trace has its chronicle.

Main statements:

* `Crowd.Trace.exists_chronicle` : every trace has a chronicle.
* `Crowd.reachable_iff_exists_chronicle` : a crowd can be reached if there is a chronicle of it.
* `Crowd.chronicle_of_recount` : what is played out is told by its chronicle.
-/

namespace RemoteFile

namespace Crowd

variable {ω κ α β : Type}

/-- What has happened on the way from one crowd to another one, the latest first, each thing with
the world that it found. -/
inductive Chronicle (m : Rules ω κ α β) (c₀ : Crowd ω κ α β) :
    List (ω × Happening κ α β) → Crowd ω κ α β → Prop
  /-- Nothing has happened. -/
  | nil : Chronicle m c₀ [] c₀
  /-- One more thing happens. -/
  | snoc {ms : List (ω × Happening κ α β)} {c c' : Crowd ω κ α β} {e : Happening κ α β} :
      Chronicle m c₀ ms c → Does m c e c' → Chronicle m c₀ ((c.world, e) :: ms) c'

variable {m : Rules ω κ α β} {c₀ c c' : Crowd ω κ α β} {hs : List (Happening κ α β)}
  {ms ms' : List (ω × Happening κ α β)}

theorem Chronicle.trace (h : Chronicle m c₀ ms c) : Trace m c₀ (ms.map Prod.snd) c := by
  induction h with
  | nil => exact .nil
  | snoc _ hd ih => exact ih.snoc hd

theorem Chronicle.reachable (h : Chronicle m c₀ ms c) : Reachable m c₀ c := h.trace.reachable

/-- Every trace has a chronicle. -/
theorem Trace.exists_chronicle (h : Trace m c₀ hs c) :
    ∃ ms, Chronicle m c₀ ms c ∧ ms.map Prod.snd = hs := by
  induction h with
  | nil => exact ⟨[], .nil, rfl⟩
  | snoc _ hd ih =>
    obtain ⟨ms, hms, rfl⟩ := ih
    exact ⟨_, hms.snoc hd, rfl⟩

/-- A crowd can be reached if and only if there is a chronicle of it. -/
theorem reachable_iff_exists_chronicle : Reachable m c₀ c ↔ ∃ ms, Chronicle m c₀ ms c := by
  constructor
  · intro h
    obtain ⟨hs, htrace⟩ := reachable_iff_exists_trace.1 h
    obtain ⟨ms, hms, -⟩ := htrace.exists_chronicle
    exact ⟨ms, hms⟩
  · rintro ⟨ms, h⟩
    exact h.reachable

/-- Does several things, and tells what has happened in which world, the latest first. -/
def recount (m : Rules ω κ α β) (told : List (ω × Happening κ α β)) :
    List (Deed κ) → Crowd ω κ α β → Option (List (ω × Happening κ α β) × Crowd ω κ α β)
  | [], c => some (told, c)
  | d :: ds, c =>
    (happens m c d).bind fun e =>
      (c.act m d).bind fun c' => recount m ((c.world, e) :: told) ds c'

/-- What is played out is told by its chronicle. -/
theorem chronicle_of_recount {ds : List (Deed κ)} (ht : Chronicle m c₀ ms c)
    (h : recount m ms ds c = some (ms', c')) : Chronicle m c₀ ms' c' := by
  induction ds generalizing c ms with
  | nil =>
    cases h
    exact ht
  | cons d ds ih =>
    obtain ⟨e, he, h⟩ := Option.bind_eq_some_iff.1 h
    obtain ⟨c₁, hact, h⟩ := Option.bind_eq_some_iff.1 h
    exact ih (ht.snoc (does_of_act he hact)) h

end Crowd

end RemoteFile
