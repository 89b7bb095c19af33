import RemoteFile.Consultation
import RemoteFile.Proofs.Renewal.Line

/-!
# Crowds of renewals

Any number of callers of one resolver, each of which hands back a URL that it was given before, and
is dropped whenever it likes, while others look at the current URL, time passes and the rest of the
world changes.

Main statements:

* `Consultation.moved` : what happens in such a crowd is the deed of one renewal.
* `Consultation.inLine` : the callers stand in line.
-/

namespace RemoteFile

namespace Consultation

variable {σ τ : Type}

/-- What is handed back for renewal. -/
structure Handback where
  /-- The number of the URL. -/
  number : Nat
  /-- The URL was not rejected yet. -/
  early : Bool
deriving DecidableEq, Repr

/-- A call of the resolver that is under way, or about to begin. -/
abbrev Call (σ : Type) := Job (Consultation σ) Renewal (Except Failure Source)

/-- Callers of one resolver. -/
abbrev Calls (σ : Type) := Crowd (Consultation σ) Handback (Call σ) (Except Failure Source)

/-- What happens among them. -/
abbrev Happening (σ : Type) := Crowd.Happening Handback (Call σ) (Except Failure Source)

/-- What happens to a resolver besides renewals. -/
inductive Outside : Consultation σ → Consultation σ → Prop
  /-- Somebody looks at the current URL. -/
  | look (x : Consultation σ) : Outside x x.look.2
  /-- The world changes, and the resolver does not. -/
  | pass {x : Consultation σ} {w : World σ} (h : x.world.Unrenewed w) :
      Outside x { x with world := w }

/-- Renewals of the URLs that were looked at. -/
def rules (s : Setting σ τ) :
    Crowd.Rules (Consultation σ) Handback (Call σ) (Except Failure Source) :=
  ⟨Job.actor (actor s), fun k => renew k.number k.early, Outside⟩

/-- The renewal that a call makes. -/
def renewal? : Call σ → Option Renewal
  | .start _ => none
  | .going r => some r

/-- The renewals that are under way. -/
def renewals (c : Calls σ) : List Renewal := c.tasks.filterMap fun x => renewal? x.2

/-- What becomes of a renewal by what happens. -/
def deed : Happening σ → Renewal.Deed
  | .joins _ | .outside | .turns _ (.start _) _ | .drops _ (.start _) => .nothing
  | .turns _ (.going r) t => r.deed (t.next?.bind renewal?) t.result?
  | .drops _ (.going r) => r.dropDeed

/-- All URLs that were looked at are current or older, and every call is one for a renewal. -/
structure Known (c : Calls σ) : Prop where
  /-- The URLs that were looked at. -/
  sources : ∀ source ∈ c.world.sources,
    source.generation ≤ c.world.world.resolver.current.generation
  /-- The calls. -/
  tasks : ∀ x ∈ c.tasks, x.2 = renew x.1.number x.1.early ∨ ∃ r, x.2 = .going r

variable {s : Setting σ τ} {w₀ : World σ} {c c' : Calls σ} {e : Happening σ}
  {hs : List (Happening σ)}

theorem step_renew {k : Handback} {x x' : Consultation σ}
    {t : Turn (Call σ) (Except Failure Source)}
    (h : (rules s).actor.step (renew k.number k.early) x = (t, x')) :
    x' = x ∧ t = .moved (.going (Renewal.start (x.source k.number) k.early)) := by
  cases h
  exact ⟨rfl, rfl⟩

theorem step_going {r : Renewal} {x x' : Consultation σ}
    {t : Turn (Call σ) (Except Failure Source)}
    (h : (rules s).actor.step (.going r) x = (t, x')) :
    ∃ rt, r.step s x.world = (rt, x'.world) ∧ x'.sources = x.sources ∧
      t.next?.bind renewal? = rt.next? ∧ t.result? = rt.result? ∧
      ∀ a, t.next? = some a → ∃ r', a = .going r' := by
  rcases hrt : r.step s x.world with ⟨rt, w⟩
  have heq : (rules s).actor.step (.going r) x =
      (rt.map Job.going id, { x with world := w }) := by
    change ((r.step s x.world).1.map Job.going id, { x with world := (r.step s x.world).2 }) = _
    rw [hrt]
  cases heq.symm.trans h
  refine ⟨rt, rfl, rfl, ?_⟩
  cases rt <;> simp [Turn.map, renewal?]

theorem step_of_turns {k : Handback} {r : Renewal} {t : Turn (Call σ) (Except Failure Source)}
    (h : Crowd.Does (rules s) c (.turns k (.going r) t) c') :
    r ∈ renewals c ∧ ∃ rt, r.step s c.world.world = (rt, c'.world.world) ∧
      t.next?.bind renewal? = rt.next? ∧ t.result? = rt.result? := by
  cases h with
  | @turns x x' _ _ l l' rs k hstep =>
    obtain ⟨rt, hrt, -, hnext, hresult, -⟩ := step_going hstep
    exact ⟨List.mem_filterMap.2 ⟨(k, .going r), by simp, rfl⟩, rt, hrt, hnext, hresult⟩

theorem source_le (hk : Known c) (n : Nat) :
    (c.world.source n).generation ≤ c.world.world.resolver.current.generation := by
  rw [source, List.getD_eq_getElem?_getD]
  cases hn : c.world.sources[n]? with
  | none => exact Nat.le_refl _
  | some source => exact hk.sources source (List.mem_of_getElem? hn)

theorem renewals_split (x : Consultation σ) (l r : List (Handback × Call σ)) (k : Handback)
    (o : Option (Call σ)) (rs : List (Handback × Except Failure Source)) :
    renewals ⟨x, l ++ (o.map (k, ·)).toList ++ r, rs⟩ =
      l.filterMap (fun x => renewal? x.2) ++ (o.bind renewal?).toList ++
        r.filterMap fun x => renewal? x.2 := by
  simp only [renewals, List.filterMap_append]
  cases o with
  | none => rfl
  | some a => cases a <;> rfl

/-- **What happens among callers of a resolver is the deed of one renewal.** -/
theorem moved (hk : Known c) (h : Crowd.Does (rules s) c e c') :
    ∃ l r o o', renewals c = l ++ o.toList ++ r ∧ renewals c' = l ++ o'.toList ++ r ∧
      Renewal.Deals s c.world.world o (deed e) c'.world.world o' := by
  cases h with
  | joins x ts rs k =>
    refine ⟨ts.filterMap fun x => renewal? x.2, [], none, none, by simp [renewals], ?_,
      .aside ⟨rfl, rfl⟩⟩
    simp [renewals, rules, renew, Job.task, renewal?]
  | @turns x x' j t l r rs k hstep =>
    have hbefore := renewals_split x l r k (some j) rs
    simp only [Option.map_some, Option.toList_some, List.append_assoc, List.singleton_append]
      at hbefore
    refine ⟨_, _, renewal? j, _, by rw [hbefore, List.append_assoc]; rfl,
      renewals_split x' l r k t.next? _, ?_⟩
    obtain hj | ⟨r', rfl⟩ : j = renew k.number k.early ∨ ∃ r, j = .going r :=
      hk.tasks (k, j) (by simp)
    · subst hj
      obtain ⟨rfl, rfl⟩ := step_renew hstep
      exact .begins ⟨rfl, rfl⟩ (source_le hk _)
    · obtain ⟨rt, hrt, -, hnext, hresult, -⟩ := step_going hstep
      rw [deed, hnext, hresult]
      exact Renewal.deals_step hrt
  | drops x j l r rs k =>
    have hbefore := renewals_split x l r k (some j) rs
    simp only [Option.map_some, Option.toList_some, List.append_assoc, List.singleton_append]
      at hbefore
    have hafter := renewals_split ((rules s).actor.drop j x) l r k none rs
    simp only [Option.map_none, Option.toList_none, List.append_nil] at hafter
    refine ⟨_, _, renewal? j, none, by rw [hbefore, List.append_assoc]; rfl,
      by rw [hafter]; simp, ?_⟩
    cases j with
    | start first => exact .aside ⟨rfl, rfl⟩
    | going r' => exact Renewal.deals_drop s r' x.world
  | outside ts rs hout =>
    refine ⟨ts.filterMap fun x => renewal? x.2, [], none, none, by simp [renewals],
      by simp [renewals], .aside ?_⟩
    cases hout with
    | look => exact ⟨rfl, rfl⟩
    | pass h => exact h

theorem known_of_does (hk : Known c) (h : Crowd.Does (rules s) c e c') : Known c' := by
  obtain ⟨l, r, o, o', -, -, hdeals⟩ := moved hk h
  have hle := hdeals.generation_le
  have hsame : c'.world.sources = c.world.sources →
      ∀ source ∈ c'.world.sources,
        source.generation ≤ c'.world.world.resolver.current.generation :=
    fun heq source hmem => Nat.le_trans (hk.sources source (heq ▸ hmem)) hle
  cases h with
  | joins x ts rs k =>
    refine ⟨hsame rfl, fun y hy => ?_⟩
    rcases List.mem_append.1 hy with hy | hy
    · exact hk.tasks y hy
    · rw [List.mem_singleton.1 hy]
      exact .inl rfl
  | @turns x x' j t l r rs k hstep =>
    obtain hj | ⟨r', rfl⟩ : j = renew k.number k.early ∨ ∃ r, j = .going r :=
      hk.tasks (k, j) (by simp)
    · subst hj
      obtain ⟨rfl, rfl⟩ := step_renew hstep
      refine ⟨hsame rfl, fun y hy => ?_⟩
      simp only [List.mem_append] at hy
      rcases hy with (hy | hy) | hy
      · exact hk.tasks y (by simp [hy])
      · cases List.mem_singleton.1 hy
        exact .inr ⟨_, rfl⟩
      · exact hk.tasks y (by simp [hy])
    · obtain ⟨rt, -, hsources, -, -, hgoing⟩ := step_going hstep
      refine ⟨hsame hsources, fun y hy => ?_⟩
      simp only [List.mem_append, Option.mem_toList, Option.map_eq_some_iff] at hy
      rcases hy with (hy | ⟨a, ha, rfl⟩) | hy
      · exact hk.tasks y (by simp [hy])
      · exact .inr (hgoing a ha)
      · exact hk.tasks y (by simp [hy])
  | drops x j l r rs k =>
    refine ⟨hsame ?_, fun y hy => hk.tasks y ?_⟩
    · cases j <;> rfl
    · simp only [List.mem_append, List.mem_cons] at hy ⊢
      exact hy.imp_right Or.inr
  | outside ts rs hout =>
    refine ⟨?_, hk.tasks⟩
    cases hout with
    | look =>
      intro source hmem
      rcases List.mem_append.1 hmem with hmem | hmem
      · exact hk.sources source hmem
      · rw [List.mem_singleton.1 hmem]
        exact Nat.le_refl _
    | pass h => exact hsame rfl

theorem known (h : Crowd.Trace (rules s) (Crowd.empty (fresh w₀)) hs c) : Known c := by
  refine h.invariant (I := fun _ c => Known c) ⟨fun source hmem => ?_, nofun⟩
    fun _ hk hd => known_of_does hk hd
  rw [List.mem_singleton.1 hmem]
  exact Nat.le_refl _

/-- Nothing has happened since the latest answer of the renewer, or since the beginning. -/
def atAnswer : List (Happening σ) → Bool
  | [] => true
  | e :: _ => (deed e).isAnswer

/-- The callers stand in line. -/
theorem inLine (h : Crowd.Trace (rules s) (Crowd.empty (fresh w₀)) hs c)
    (h₀ : w₀.resolver.line = []) :
    ∃ mark, Renewal.InLine mark c.world.world.resolver (renewals c) := by
  refine h.invariant (I := fun _ c => ∃ mark, Renewal.InLine mark c.world.world.resolver
    (renewals c)) ⟨_, .empty h₀⟩ ?_
  rintro hs c e c' ht ⟨mark, hline⟩ hd
  obtain ⟨l, r, o, o', hl, hl', hdeals⟩ := moved (known ht) hd
  rw [hl] at hline
  rw [hl']
  exact ⟨_, hline.deals hdeals⟩

theorem inLine_of_atAnswer (h : Crowd.Trace (rules s) (Crowd.empty (fresh w₀)) hs c)
    (h₀ : w₀.resolver.line = []) (hat : atAnswer hs = true) :
    Renewal.InLine c.world.world.resolver.nextTicket c.world.world.resolver (renewals c) := by
  cases h with
  | nil => exact .empty h₀
  | @snoc _ _ _ e ht hd =>
    have hat : (deed e).isAnswer = true := hat
    obtain ⟨mark, hline⟩ := inLine ht h₀
    obtain ⟨l, r, o, o', hl, hl', hdeals⟩ := moved (known ht) hd
    rw [hl] at hline
    rw [hl', hdeals.nextTicket_of_isAnswer hat]
    have hline' := hline.deals hdeals
    rwa [Renewal.Deed.mark, if_pos hat] at hline'

end Consultation

end RemoteFile
