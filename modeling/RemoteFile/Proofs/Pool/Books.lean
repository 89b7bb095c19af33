import RemoteFile.Proofs.Pool.Custody
import RemoteFile.Proofs.Transport.Meter
import RemoteFile.Proofs.World.Books

/-!
# The books of a pool

Whatever an attempt does, it settles its accounts: what it takes out of the pool it has in its
hands, and what it lets go of is idle or counted. A slot is handed out in the one turn in which the
attempt finds a connection or requests one.

Main statements:

* `Fetch.handed_iff` : a slot is handed out in the turn that finds it.
* `Fetch.settles_step` : a turn of an attempt settles its accounts.
* `Fetch.Acts.settles` : so does every step of a task.
-/

namespace RemoteFile

variable {σ τ : Type}

namespace Reading

variable {idle : Duration} {r : Reading} {w w' : World σ}
  {t : Turn Reading (Except Failure (List UInt8) × Connection)}

theorem unbooked_noteSkip (told : Prop) (r : Reading) (w : World σ) :
    w.Unbooked told (r.noteSkip w) := by
  have hcount : w.Unbooked told (w.count (·.discarded r.dropped)) :=
    (World.Unbooked.refl told w).count fun _ => rfl
  simp only [noteSkip]
  split
  · exact hcount.note rfl
  · exact hcount

theorem unbooked_step (told : Prop) (h : r.step idle w = (t, w')) : w.Unbooked told w' := by
  simp only [step] at h
  split at h
  · cases h
    exact unbooked_noteSkip told r w
  · split at h <;> cases h <;> exact unbooked_noteSkip told r w

end Reading

namespace Fetch

/-- What attempts have in their hands. -/
def hands (fs : List (Fetch τ)) : Hand := ⟨total bodies fs, fs.filterMap conn?⟩

/-- What one step of a task settles: a slot is handed out if its attempt has one afterwards that it
did not have before. -/
def Settles (s : Setting σ τ) (w : World σ) (o : Option (Fetch τ)) (w' : World σ)
    (o' : Option (Fetch τ)) : Prop :=
  w.Settles s.net.Discreet (hands o.toList) (total slots o'.toList - total slots o.toList) 0 w'
    (hands o'.toList)

variable {s : Setting σ τ} {f : Fetch τ} {w w₁ w' : World σ}
  {t : Turn (Fetch τ) (Except Failure (List UInt8))} {o o' : Option (Fetch τ)}

theorem total_slots_le (o : Option (Fetch τ)) : total slots o.toList ≤ 1 := by
  cases o with
  | none => exact Nat.zero_le _
  | some f =>
    rw [total_some, slots]
    split <;> decide

/-- **A slot is handed out in the turn that finds it.**  In that turn the attempt looks for a
connection, and has a slot afterwards. -/
theorem handed_iff (h : f.step s w = (t, w')) :
    total slots t.next?.toList - total slots (some f).toList = 1 ↔
      f.phase = .looking ∧ total slots t.next?.toList = 1 := by
  have hle := total_slots_le t.next?
  rw [total_some]
  cases hf : f.phase with
  | looking => simp [slots, hf]
  | parked since =>
    -- who has waited looks for a connection in a turn after this one
    have hnone : total slots t.next?.toList = 0 := by
      simp only [step, hf] at h
      split at h
      · cases h
        rfl
      · cases h
        rw [Turn.next?_waits, total_some, slots, hf]
    simp [hnone]
  | opening id stop ticket deadline | reading r =>
    simp only [slots, hf, reduceCtorEq, false_and, iff_false]
    omega

theorem Settles.arranges (h : Settles s w o w₁ o') (hw : w₁.Arranges w') : Settles s w o w' o' :=
  h.trans (hw.unbooked.settles _)

theorem settles_request (h : f.request s w = (t, w')) :
    w.Settles s.net.Discreet ⟨0, []⟩ 1 0 w' (hands t.next?.toList) := by
  have hissue := World.settles_issue s (.openRange f.source.url (ByteRange.between f.offset
    (rangeStop f.offset s.size s.options.pool.maxRangeLen))) (w.manage fun p => p.number.2)
    ⟨0, [w.pool.nextId]⟩
  rw [World.issue_eq] at hissue
  simp only [request, World.issue_eq] at h
  cases h
  exact (World.settles_number w).trans hissue

theorem settles_freeSlot (told : Prop) (id : Nat) (w : World σ) :
    w.Settles told ⟨0, [id]⟩ 0 0 w.freeSlot ⟨0, []⟩ := by
  have hfree : w.Unbooked told w.freeSlot := (World.Unbooked.refl told w).manage rfl rfl
  exact (hfree.settles ⟨0, [id]⟩).hold rfl (fun _ => Nat.le_refl _) rfl fun _ => Nat.zero_le _

theorem settles_taken {c : Connection} {rest : List Connection}
    (h : (w.pool.sweep s.options.pool w.now).idle.Perm (c :: rest)) :
    w.Settles s.net.Discreet ⟨0, []⟩ 0 0
      ((w.sweep s).manage fun _ => { w.pool.sweep s.options.pool w.now with idle := rest })
      ⟨1, [c.id]⟩ := by
  refine (w.settles_sweep s ⟨0, []⟩).trans (World.settles_take ?_ ?_) <;> rw [World.pool_sweep]
  exact h

theorem settles_swept (q : Pool) (hidle : q.idle = (w.pool.sweep s.options.pool w.now).idle)
    (hnext : q.nextId = w.pool.nextId) :
    w.Settles s.net.Discreet ⟨0, []⟩ 0 0 ((w.sweep s).manage fun _ => q) ⟨0, []⟩ := by
  refine (w.settles_sweep s _).trans (((World.Unbooked.refl _ _).manage ?_ ?_).settles _) <;>
    rw [World.pool_sweep]
  · exact hidle
  · exact hnext

theorem settles_read {r : Reading} {x : Except Failure (List UInt8)} {c : Connection}
    (h : r.step s.options.timeouts.idle w = (.done (x, c), w₁)) :
    w.Settles s.net.Discreet ⟨1, [r.conn.id]⟩ 0 0 w₁ ⟨1, [c.id]⟩ := by
  rw [(Reading.sameConn_done h).id]
  exact (Reading.unbooked_step s.net.Discreet h).settles _

/-- **A turn of an attempt settles its accounts.** -/
theorem settles_step (h : f.step s w = (t, w')) : Settles s w (some f) w' t.next? := by
  obtain ⟨source, offset, len, phase⟩ := f
  cases turned h with
  | refused hf hc | rouses hf hlt | dozes hf hlt | expects hf harr =>
    cases hf
    exact .refl _ w _
  | reuses hf hc hq =>
    cases hf
    cases hq with
    | reuse hskip hidle hleast =>
      exact (settles_taken hidle).trans (World.settles_reused _ _ _ _ _)
  | reserves hf hc hq hr =>
    cases hf
    have hrequest := settles_request hr
    obtain ⟨⟨deadline, rfl⟩, -⟩ := requested hr
    cases hq with
    | reserve hnone hroom =>
      have hswept := settles_swept (s := s) (w := w) (w.pool.sweep s.options.pool w.now).reserve
        rfl rfl
      exact (hswept.trans (World.settles_lived _ _ _)).trans hrequest
  | replaces hf hc hq hr =>
    cases hf
    have hrequest := settles_request hr
    obtain ⟨⟨deadline, rfl⟩, -⟩ := requested hr
    cases hq with
    | replace hnone hfull hidle hold =>
      -- the connection is in hand for a moment, and the request is made for another one
      exact ((settles_taken hidle).trans (World.settles_evict s _ _)).trans hrequest
  | parks hf hc hq =>
    cases hf
    cases hq with
    | wait hidle hfull =>
      exact (settles_swept _ rfl rfl).trans (((World.Unbooked.refl _ _).note (by rfl)).settles _)
  | expires hf harr =>
    cases hf
    exact settles_freeSlot _ _ w
  | denied hf hcol =>
    cases hf
    exact ((World.unbooked_collect hcol).settles _).trans (settles_freeSlot _ _ _)
  | opens hf hcol hstop =>
    cases hf
    exact ((World.unbooked_collect hcol).settles _).trans (World.settles_opened _ _ _ _ _)
  | @wastes id stop deadline ticket body e w₁ hf hcol hstop =>
    cases hf
    have hopened := ((World.unbooked_collect hcol).settles ⟨0, [id]⟩).trans
      (w₁.settles_opened id offset stop source.generation)
    exact hopened.trans (World.settles_giveUp s (.opened id offset stop body w₁.now) _)
  | @reads r r' tr t w' hf hr hnext ht =>
    cases hf
    have hread := (Reading.unbooked_step s.net.Discreet hr).settles ⟨1, [r.conn.id]⟩
    rw [ht]
    exact hread.hold rfl (fun _ => Nat.le_refl _) rfl fun i => Nat.le_of_eq
      (congrArg (fun id => [id].count i) (Reading.sameConn_step hr hnext).id)
  | @finishes r bytes c w₁ hf hr =>
    cases hf
    exact (settles_read hr).trans (World.settles_giveBack s c w₁)
  | @breaks r e c w₁ hf hr =>
    cases hf
    exact (settles_read hr).trans (World.settles_giveUp s c w₁)

theorem settles_drop (s : Setting σ τ) (f : Fetch τ) (w : World σ) :
    Settles s w (some f) (f.drop s w) none := by
  obtain ⟨source, offset, len, phase⟩ := f
  cases phase with
  | looking | parked since => exact .refl _ w _
  | opening id stop ticket deadline => exact settles_freeSlot _ id w
  | reading r => exact World.settles_giveUp s r.conn w

/-- **Every step of a task settles its accounts.** -/
theorem Acts.settles (h : Acts s w o w' o') : Settles s w o w' o' := by
  refine h.rule (M := Settles s) (fun w => ?_) (fun w f hf => ?_) settles_step
    (fun f w => settles_drop s f w) fun hs hw => hs.arranges hw
  · exact .refl _ w _
  · obtain ⟨source, offset, len, phase⟩ := f
    cases hf
    exact .refl _ w _

theorem Settles.among (h : Settles s w o w' o') (l r : List (Fetch τ)) :
    w.Settles s.net.Discreet (hands (l ++ o.toList ++ r))
      (total slots (l ++ o'.toList ++ r) - total slots (l ++ o.toList ++ r)) 0 w'
      (hands (l ++ o'.toList ++ r)) := by
  have hids : ∀ (o : Option (Fetch τ)) (i : Nat),
      (o.toList.filterMap conn? ++ (l.filterMap conn? ++ r.filterMap conn?)).count i =
        ((l ++ o.toList ++ r).filterMap conn?).count i := by
    intro o i
    simp only [List.filterMap_append, List.count_append]
    omega
  rw [total_split, total_split, Nat.add_sub_add_right]
  exact (World.Settles.frame h (total bodies l + total bodies r)
    (l.filterMap conn? ++ r.filterMap conn?)).hold (total_split bodies l r o).symm
    (fun i => Nat.le_of_eq (hids o i)) (total_split bodies l r o')
    fun i => Nat.le_of_eq (hids o' i).symm

end Fetch

end RemoteFile
