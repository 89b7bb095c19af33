import RemoteFile.Proofs.File.Crowd
import RemoteFile.Proofs.Transport.Meter

/-!
# Opening a file

While a file is opened, its object is probed, and the URL may be renewed. None of this needs a
connection: the pool is as fresh as it was when the file is open, and no response is open.

Main statements:

* `File.related` : what is true of every probe, and of what is arranged, is true of opening a file.
* `File.untouched_of_opening` : opening a file touches no connection.
-/

namespace RemoteFile

namespace File

variable {σ τ : Type} {s : Setting σ τ} {shift : σ → σ → Prop} {w₀ : World σ}
  {R : World σ → World σ → Prop}

theorem related_acts {w w' : World σ} {o o' : Option (Probing τ)} (hrefl : ∀ w, R w w)
    (htrans : ∀ {w w₁ w' : World σ}, R w w₁ → R w₁ w' → R w w')
    (harrange : ∀ {w w' : World σ}, w.Arranges w' → R w w')
    (hprobe : ∀ {p : Probing τ} {t w w'}, p.step s w = (t, w') → R w w')
    (h : Operation.Acts (Probing.attempts s) w o w' o') : R w w' := by
  cases h with
  | aside hw | begins number source hw => exact harrange hw
  | goesOn h ha => exact hprobe h
  | ends h hw => exact htrans (hprobe h) (harrange hw)
  | dropped hw => exact htrans (hrefl _) (harrange hw)

/-- What is true of every probe, of what is arranged and of what happens besides, is true of
opening a file. -/
theorem related {c : Crowd (World σ) Url (Opening τ) (Except Failure FileInfo)}
    (hrefl : ∀ w, R w w) (htrans : ∀ {w w₁ w' : World σ}, R w w₁ → R w₁ w' → R w w')
    (harrange : ∀ {w w' : World σ}, w.Arranges w' → R w w')
    (hprobe : ∀ {p : Probing τ} {t w w'}, p.step s w = (t, w') → R w w')
    (hout : ∀ {w w' : World σ}, Outside shift w w' → R w w')
    (h : Crowd.Reachable (rules s shift) (Crowd.empty w₀) c) : R w₀ c.world := by
  refine (h.separate (W := fun w => R w₀ w) (E := fun _ _ => True) (T := fun _ _ _ => True)
    (R := fun _ _ => True) ⟨?_, ?_, ?_, ?_, ?_⟩ (hrefl w₀)).1
  · exact fun _ _ => trivial
  · exact fun _ _ => trivial
  · intro w w' _ o t hw _ hstep
    obtain ⟨ot, w₁, hprobes, hw₁, -, -⟩ := next?_openStep hstep
    have hacts := related_acts hrefl htrans harrange hprobe (Operation.acts hprobes)
    exact ⟨htrans hw (htrans hacts (harrange hw₁)), trivial, fun _ _ => trivial, fun _ _ => trivial⟩
  · intro w _ o hw _
    have hacts := related_acts hrefl htrans harrange hprobe
      (Operation.acts_drop (Probing.attempts s) o.probe w)
    exact ⟨htrans hw hacts, trivial⟩
  · exact fun hw h => ⟨htrans hw (hout h), trivial⟩

/-- No connection is touched, and the file is not closed. -/
structure Untouched (w w' : World (Metered σ)) : Prop where
  /-- The pool is the same. -/
  pool : w'.pool = w.pool
  /-- No response is opened or closed. -/
  alive : w'.net.alive = w.net.alive
  /-- Whether the file is closed. -/
  closed : w'.closed = w.closed

theorem untouched_probe {p : Probing τ} {t : Turn (Probing τ) (Except Failure Probe)}
    {w w' : World (Metered σ)} (h : p.step s.metered w = (t, w')) : Untouched w w' := by
  cases p with
  | unsent url =>
    simp only [Probing.step, World.issue_eq] at h
    cases h
    exact ⟨rfl, rfl, rfl⟩
  | sent ticket deadline =>
    simp only [Probing.step] at h
    split at h <;> cases h <;> exact ⟨rfl, rfl, rfl⟩

/-- **Opening a file touches no connection.** -/
theorem untouched_of_opening
    {c : Crowd (World (Metered σ)) Url (Opening τ) (Except Failure FileInfo)}
    (h : Crowd.Reachable (rules s.metered (Metered.Shift shift)) (Crowd.empty w₀.metered) c) :
    Untouched w₀.metered c.world := by
  refine related (R := Untouched) (fun _ => ⟨rfl, rfl, rfl⟩) (fun h h' => ?_) (fun h => ?_)
    untouched_probe (fun h => ?_) h
  · exact ⟨h'.pool.trans h.pool, h'.alive.trans h.alive, h'.closed.trans h.closed⟩
  · exact ⟨h.beside.pool, congrArg Metered.alive h.beside.net, h.beside.closed⟩
  · cases h with
    | pass millis => exact ⟨rfl, rfl, rfl⟩
    | shift _ hs => exact ⟨rfl, hs.2.1, rfl⟩

end File

end RemoteFile
