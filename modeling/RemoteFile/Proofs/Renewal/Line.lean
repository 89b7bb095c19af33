import Mathlib.Data.List.Nodup
import RemoteFile.Proofs.Renewal.Turn

/-!
# The line of those who renew

Tickets are handed out in order, and the line keeps that order, so that who came first has its turn
first. An answer of the renewer divides those who came before it from those who come after: the
first ticket that is handed out after it is the *mark*. Whoever has an earlier ticket shares that
answer; whoever has a later one has seen it and calls the renewer again.

Main statements:

* `Renewal.InLine.deals` : the line stays in order, whatever anybody does.
* `Renewal.Fits.since_of_asks` : who calls the renewer came after the latest answer.
* `Renewal.InLine.progresses` : whoever is first in line does not wait for anybody else.
* `Renewal.InLine.rest_of_first` : there are never two calls of the renewer under way.
-/

namespace RemoteFile

namespace Renewal

variable {σ τ : Type}

/-- The ticket of a renewal that stands in line. -/
def ticket? (r : Renewal) : Option Nat := r.caller?.map Caller.ticket

/-- The tickets of all renewals. -/
def tickets (rs : List Renewal) : List Nat := rs.filterMap ticket?

/-- What a renewal knows is right: `mark` is the first ticket after the latest answer. -/
structure Fits (mark : Nat) (x : Resolver) (r : Renewal) : Prop where
  /-- It replaces no URL that is still to come. -/
  stale : r.stale.generation ≤ x.current.generation
  /-- If it came before the latest answer, then it can tell so, by a failure or by a later URL. -/
  before : ∀ {seen n : Nat}, r.phase = .queued seen n → n < mark →
    seen < x.completed ∧ (x.failure = none → r.stale.generation < x.current.generation)
  /-- If it came after the latest answer, then it has seen all that were completed. -/
  since : ∀ {seen n : Nat}, r.phase = .queued seen n → mark ≤ n → seen = x.completed
  /-- If it has called the renewer, then it came after the latest answer, and is first in line. -/
  asking : ∀ {n : Nat} {due : Option Nat} {outcome : Except Failure FreshUrl},
    r.phase = .asking n due outcome →
      mark ≤ n ∧ r.stale.generation = x.current.generation ∧ x.line.head? = some n

/-- The line is what the renewals say that it is. -/
structure InLine (mark : Nat) (x : Resolver) (rs : List Renewal) : Prop where
  /-- Everybody in line is going on. -/
  perm : (tickets rs).Perm x.line
  /-- Who came first is served first. -/
  sorted : x.line.Pairwise (· < ·)
  /-- Tickets that are still to be handed out are not in line. -/
  known : ∀ n ∈ x.line, n < x.nextTicket
  /-- So is the mark at most the next ticket. -/
  mark_le : mark ≤ x.nextTicket
  /-- Everybody's view is right. -/
  fits : ∀ r ∈ rs, r.Fits mark x

/-- The first ticket after the latest answer, once this has been done. -/
def Deed.mark (d : Deed) (x : Resolver) (mark : Nat) : Nat :=
  if d.isAnswer then x.nextTicket else mark

theorem Deals.nextTicket_of_isAnswer {s : Setting σ τ} {w w' : World σ} {o o' : Option Renewal}
    {d : Deed} (h : Deals s w o d w' o') (hd : d.isAnswer = true) :
    w'.resolver.nextTicket = w.resolver.nextTicket := by
  cases h with
  | fails _ _ hw | renews _ _ hw =>
    rw [hw.resolver]
    rfl
  | aside | begins | enters | waits | asks | leaves | vanishes | quits | abandons => cases hd

theorem Deals.nextTicket_le {s : Setting σ τ} {w w' : World σ} {o o' : Option Renewal} {d : Deed}
    (h : Deals s w o d w' o') : w.resolver.nextTicket ≤ w'.resolver.nextTicket := by
  cases h with
  | aside hw | begins hw | waits hw | vanishes _ hw | asks _ _ _ _ _ hw | leaves _ _ _ hw
  | fails _ _ hw | renews _ _ hw | quits _ hw | abandons _ hw =>
    have hnext := congrArg Resolver.nextTicket hw.resolver
    exact Nat.le_of_eq hnext.symm
  | enters _ hw =>
    rw [hw.resolver]
    exact Nat.le_succ _

theorem Deals.ticket_of_enters {s : Setting σ τ} {w w' : World σ} {o o' : Option Renewal}
    {k : Caller} (h : Deals s w o (.enters k) w' o') :
    k.ticket = w.resolver.nextTicket ∧ w'.resolver.nextTicket = w.resolver.nextTicket + 1 := by
  cases h with
  | enters _ hw =>
    rw [hw.resolver]
    exact ⟨rfl, rfl⟩

theorem Deals.mem_line {s : Setting σ τ} {w w' : World σ} {o o' : Option Renewal} {d : Deed}
    (h : Deals s w o d w' o') {n : Nat} (hn : n ∈ w'.resolver.line) :
    n ∈ w.resolver.line ∨ n = w.resolver.nextTicket := by
  cases h with
  | aside hw | begins hw | waits hw | vanishes _ hw | asks _ _ _ _ _ hw =>
    rw [hw.resolver] at hn
    exact .inl hn
  | leaves _ _ _ hw | fails _ _ hw | renews _ _ hw | quits _ hw | abandons _ hw =>
    rw [hw.resolver] at hn
    exact .inl (List.mem_of_mem_erase hn)
  | enters _ hw =>
    rw [hw.resolver] at hn
    exact (List.mem_append.1 hn).imp_right List.mem_singleton.1

theorem ticket?_of_queued {r : Renewal} {seen n : Nat} (h : r.phase = .queued seen n) :
    r.ticket? = some n := by
  simp only [ticket?, caller?, h, Option.map_some]

theorem ticket?_of_asking {r : Renewal} {n : Nat} {due : Option Nat}
    {outcome : Except Failure FreshUrl} (h : r.phase = .asking n due outcome) :
    r.ticket? = some n := by
  simp only [ticket?, caller?, h, Option.map_some]

theorem ticket?_of_arriving {r : Renewal} (h : r.phase = .arriving) : r.ticket? = none := by
  simp only [ticket?, caller?, h, Option.map_none]

theorem asker?_of_asking {r : Renewal} {n : Nat} {due : Option Nat}
    {outcome : Except Failure FreshUrl} (h : r.phase = .asking n due outcome) :
    r.asker? = some ⟨r.stale, n⟩ := by
  simp only [asker?, h]

theorem phase_of_asker? {r : Renewal} {k : Caller} (h : r.asker? = some k) :
    ∃ due outcome, r.phase = .asking k.ticket due outcome := by
  unfold asker? at h
  split at h
  · cases h
  · cases h
  · rename_i n due outcome hr
    cases h
    exact ⟨due, outcome, hr⟩

theorem tickets_split (l r : List Renewal) (o : Option Renewal) :
    tickets (l ++ o.toList ++ r) = tickets l ++ (o.bind ticket?).toList ++ tickets r := by
  simp only [tickets, List.filterMap_append]
  cases o with
  | none => rfl
  | some a =>
    simp only [Option.toList_some, List.filterMap_cons, List.filterMap_nil, Option.bind_some]
    cases a.ticket? <;> rfl

theorem head?_erase {l : List Nat} {m n : Nat} (h : l.head? = some m) (hne : m ≠ n) :
    (l.erase n).head? = some m := by
  cases l with
  | nil => cases h
  | cons a l =>
    cases h
    rw [List.erase_cons_tail (by simpa using hne)]
    rfl

namespace Fits

variable {mark n : Nat} {x y : Resolver} {r : Renewal}

theorem of_same (h : Fits mark x r) (hsame : Resolver.Same x y)
    (hfirst : ∀ {n due outcome}, r.phase = .asking n due outcome → x.line.head? = some n →
      y.line.head? = some n) : Fits mark y r where
  stale := hsame.current ▸ h.stale
  before hr hn := by
    rw [hsame.completed, hsame.failure, hsame.current]
    exact h.before hr hn
  since hr hn := (h.since hr hn).trans hsame.completed.symm
  asking hr := by
    obtain ⟨hn, hgen, hhead⟩ := h.asking hr
    exact ⟨hn, hsame.current ▸ hgen, hfirst hr hhead⟩

theorem enter (h : Fits mark x r) : Fits mark x.enter r :=
  h.of_same ⟨rfl, rfl, rfl, rfl⟩ fun _ hhead => by
    rw [Resolver.enter, List.head?_append, hhead]
    rfl

theorem leave (h : Fits mark x r) (hne : r.ticket? ≠ some n) : Fits mark (x.leave n) r :=
  h.of_same ⟨rfl, rfl, rfl, rfl⟩ fun hr hhead =>
    head?_erase hhead fun hmn => hne (hmn ▸ ticket?_of_asking hr)

theorem seen_le (h : Fits mark x r) {seen : Nat} (hr : r.phase = .queued seen n) :
    seen ≤ x.completed := by
  rcases Nat.lt_or_ge n mark with hn | hn
  · exact Nat.le_of_lt (h.before hr hn).1
  · exact Nat.le_of_eq (h.since hr hn)

theorem answered {mark' : Nat} (h : Fits mark x r) (hrest : r.asker? = none)
    (hmark : ∀ n ∈ r.ticket?, n < mark')
    (hdone : y.completed = x.completed + 1) (hgen : x.current.generation ≤ y.current.generation)
    (hnew : y.failure = none → x.current.generation < y.current.generation) :
    Fits mark' y r where
  stale := Nat.le_trans h.stale hgen
  before hr _ := by
    refine ⟨?_, fun hnone => Nat.lt_of_le_of_lt h.stale (hnew hnone)⟩
    rw [hdone]
    exact Nat.lt_succ_of_le (h.seen_le hr)
  since hr hn := absurd (hmark _ (ticket?_of_queued hr)) (Nat.not_lt_of_ge hn)
  asking hr := by
    rw [asker?_of_asking hr] at hrest
    cases hrest

/-- Who calls the renewer came after the latest answer, and replaces the current URL. -/
theorem since_of_asks (h : Fits mark x r) {seen : Nat} (hr : r.phase = .queued seen n)
    (hstale : x.current.generation ≤ r.stale.generation)
    (hshared : sharedFailure seen x = none) :
    mark ≤ n ∧ r.stale.generation = x.current.generation := by
  refine ⟨Nat.le_of_not_lt fun hn => ?_, Nat.le_antisymm h.stale hstale⟩
  obtain ⟨hseen, hlt⟩ := h.before hr hn
  rw [sharedFailure, if_pos hseen] at hshared
  exact Nat.not_lt_of_ge hstale (hlt hshared)

/-- Who came after the latest answer and wants the current URL renewed learns nothing from others.
-/
theorem not_learns {s : Setting σ τ} (h : Fits mark x r) {seen : Nat}
    (hr : r.phase = .queued seen n) (hn : mark ≤ n)
    (hgen : r.stale.generation = x.current.generation) (hask : s.renewer ≠ none)
    (b : Except Failure Source) : ¬ Learns s x r.stale seen b := by
  intro hlearns
  cases hlearns with
  | newer hlt => exact Nat.ne_of_lt hlt hgen
  | shared hle hshared =>
    rw [sharedFailure, h.since hr hn, if_neg (Nat.lt_irrefl _)] at hshared
    cases hshared
  | refused hle hnone => exact hask hnone

end Fits

namespace InLine

variable {mark n : Nat} {x y : Resolver} {rs l r : List Renewal} {a : Renewal}

theorem empty {x : Resolver} (h : x.line = []) : InLine x.nextTicket x [] := by
  refine ⟨?_, ?_, ?_, Nat.le_refl _, nofun⟩
  · rw [h]
    exact .refl _
  · rw [h]
    exact .nil
  · rw [h]
    exact nofun

theorem nodup (h : InLine mark x rs) : (tickets rs).Nodup :=
  h.perm.nodup_iff.2 (h.sorted.imp Nat.ne_of_lt)

theorem ne_of_others (h : InLine mark x (l ++ (some a).toList ++ r)) (ha : a.ticket? = some n) :
    ∀ b ∈ l ++ (none : Option Renewal).toList ++ r, b.ticket? ≠ some n := by
  have hnodup := h.nodup
  rw [tickets_split, Option.bind_some, ha, Option.toList_some, List.append_assoc,
    List.singleton_append, List.nodup_middle, List.nodup_cons] at hnodup
  intro b hb hbn
  rw [Option.toList_none, List.append_nil] at hb
  refine hnodup.1 ?_
  rw [tickets, tickets, ← List.filterMap_append]
  exact List.mem_filterMap.2 ⟨b, hb, hbn⟩

theorem mem_line (h : InLine mark x rs) (ha : a ∈ rs) (hn : a.ticket? = some n) : n ∈ x.line :=
  h.perm.mem_iff.1 (List.mem_filterMap.2 ⟨a, ha, hn⟩)

/-- **There are never two calls of the renewer under way.**  Whoever calls it is first in line, so
that nobody else does. -/
theorem rest_of_first (h : InLine mark x (l ++ (some a).toList ++ r)) (ha : a.ticket? = some n)
    (hfirst : x.line.head? = some n) :
    ∀ b ∈ l ++ (none : Option Renewal).toList ++ r, b.asker? = none := by
  intro b hb
  cases hk : b.asker? with
  | none => rfl
  | some k =>
    obtain ⟨due, outcome, hr⟩ := phase_of_asker? hk
    have hmem : b ∈ l ++ (some a).toList ++ r := by
      simp only [Option.toList_none, List.append_nil, List.mem_append] at hb
      simp only [Option.toList_some, List.mem_append]
      exact hb.imp_left .inl
    -- both are first in line, and so have the same ticket
    have hfirst' := ((h.fits b hmem).asking hr).2.2
    cases hfirst.symm.trans hfirst'
    exact absurd (ticket?_of_asking hr) (h.ne_of_others ha b hb)

theorem replace {o : Option Renewal} (h : InLine mark x (l ++ o.toList ++ r)) {o' : Option Renewal}
    (hticket : o'.bind ticket? = o.bind ticket?) (hline : y.line = x.line)
    (hnext : y.nextTicket = x.nextTicket) (hsame : Resolver.Same x y)
    (hfits : ∀ b ∈ o', b.Fits mark y) : InLine mark y (l ++ o'.toList ++ r) := by
  refine ⟨?_, hline ▸ h.sorted, ?_, hnext ▸ h.mark_le, fun b hb => ?_⟩
  · rw [tickets_split, hticket, ← tickets_split, hline]
    exact h.perm
  · rw [hline, hnext]
    exact h.known
  · simp only [List.mem_append, Option.mem_toList] at hb
    have hothers : ∀ b ∈ l ++ o.toList ++ r, b.Fits mark y := fun b hb =>
      (h.fits b hb).of_same hsame fun _ hhead => hline ▸ hhead
    rcases hb with (hb | hb) | hb
    · exact hothers b (by simp [hb])
    · exact hfits b hb
    · exact hothers b (by simp [hb])

theorem enter (h : InLine mark x (l ++ (some a).toList ++ r)) (ha : a.phase = .arriving) :
    InLine mark x.enter
      (l ++ (some { a with phase := .queued x.completed x.nextTicket }).toList ++ r) := by
  refine ⟨?_, ?_, ?_, Nat.le_succ_of_le h.mark_le, fun b hb => ?_⟩
  · have hperm := h.perm
    rw [tickets_split, Option.bind_some, ticket?_of_arriving ha, Option.toList_none,
      List.append_nil] at hperm
    rw [tickets_split, Option.bind_some, ticket?_of_queued rfl, Option.toList_some,
      List.append_assoc, List.singleton_append]
    exact (List.perm_middle.trans (hperm.cons _)).trans (List.perm_append_singleton _ _).symm
  · refine List.pairwise_append.2 ⟨h.sorted, List.pairwise_singleton _ _, fun n hn m hm => ?_⟩
    rw [List.mem_singleton.1 hm]
    exact h.known n hn
  · intro n hn
    rcases List.mem_append.1 hn with hn | hn
    · exact Nat.lt_succ_of_lt (h.known n hn)
    · rw [List.mem_singleton.1 hn]
      exact Nat.lt_succ_self _
  · simp only [Option.toList_some, List.mem_append, List.mem_singleton] at hb
    rcases hb with (hb | rfl) | hb
    · exact (h.fits b (by simp [hb])).enter
    · refine ⟨(h.fits a (by simp)).stale, fun hr hn => ?_, fun hr _ => ?_, nofun⟩
      · cases hr
        exact absurd h.mark_le (Nat.not_le_of_lt hn)
      · cases hr
        rfl
    · exact (h.fits b (by simp [hb])).enter

theorem leave (h : InLine mark x (l ++ (some a).toList ++ r)) (ha : a.ticket? = some n) :
    InLine mark (x.leave n) (l ++ (none : Option Renewal).toList ++ r) := by
  refine ⟨?_, h.sorted.sublist List.erase_sublist, fun m hm => ?_, h.mark_le, fun b hb => ?_⟩
  · have hperm := h.perm
    rw [tickets_split, Option.bind_some, ha, Option.toList_some, List.append_assoc,
      List.singleton_append] at hperm
    rw [tickets_split, Option.bind_none, Option.toList_none, List.append_nil]
    have := (List.perm_middle.symm.trans hperm).erase n
    rwa [List.erase_cons_head] at this
  · exact h.known m (List.mem_of_mem_erase hm)
  · refine Fits.leave (h.fits b ?_) (h.ne_of_others ha b hb)
    simp only [Option.toList_none, List.append_nil, List.mem_append] at hb
    simp only [Option.toList_some, List.mem_append]
    exact hb.imp_left .inl

theorem answered (h : InLine mark x rs) (hrest : ∀ b ∈ rs, b.asker? = none)
    (hline : y.line = x.line) (hnext : y.nextTicket = x.nextTicket)
    (hdone : y.completed = x.completed + 1) (hgen : x.current.generation ≤ y.current.generation)
    (hnew : y.failure = none → x.current.generation < y.current.generation) :
    InLine x.nextTicket y rs := by
  refine ⟨hline ▸ h.perm, hline ▸ h.sorted, ?_, Nat.le_of_eq hnext.symm, fun b hb => ?_⟩
  · rw [hline, hnext]
    exact h.known
  · exact (h.fits b hb).answered (hrest b hb) (fun n hn => h.known n (h.mem_line hb hn)) hdone hgen
      hnew

/-- Who is not first in line, but after the latest answer, has somebody before it. -/
theorem le_of_head (h : InLine mark x rs) {m : Nat} (hfirst : x.line.head? = some m)
    (hn : n ∈ x.line) : m ≤ n := by
  cases hline : x.line with
  | nil =>
    rw [hline] at hfirst
    cases hfirst
  | cons a l =>
    rw [hline] at hfirst hn
    cases hfirst
    rcases List.mem_cons.1 hn with rfl | hn
    · exact Nat.le_refl _
    · exact Nat.le_of_lt (List.rel_of_pairwise_cons (hline ▸ h.sorted) hn)

section

variable {s : Setting σ τ} {w w' : World σ} {o o' : Option Renewal} {d : Deed}

/-- **The line stays in order, whatever anybody does.** -/
theorem deals (h : InLine mark w.resolver (l ++ o.toList ++ r)) (hd : Deals s w o d w' o') :
    InLine (d.mark w.resolver mark) w'.resolver (l ++ o'.toList ++ r) := by
  cases hd with
  | aside hw | waits hw =>
    rw [hw.resolver]
    exact h
  | begins hw hstale =>
    rw [hw.resolver]
    refine h.replace rfl rfl rfl (.refl _) fun b hb => ?_
    cases hb
    exact ⟨hstale, nofun, nofun, nofun⟩
  | enters hr hw =>
    rw [hw.resolver]
    exact h.enter hr
  | @asks _ a seen n due ask hr hfirst hstale hshared hask hw =>
    rw [hw.resolver]
    refine h.replace ?_ rfl rfl ⟨rfl, rfl, rfl, rfl⟩ fun b hb => ?_
    · rw [Option.bind_some, Option.bind_some, ticket?_of_queued hr]
      rfl
    · cases hb
      obtain ⟨hn, hgen⟩ := (h.fits a (by simp)).since_of_asks hr hstale hshared
      exact ⟨(h.fits a (by simp)).stale, nofun, nofun, fun hphase => by
        cases hphase
        exact ⟨hn, hgen, hfirst⟩⟩
  | leaves hr hfirst hb hw | quits hr hw =>
    rw [hw.resolver]
    exact h.leave (ticket?_of_queued hr)
  | abandons hr hw =>
    rw [hw.resolver]
    exact h.leave (ticket?_of_asking hr)
  | @fails _ a n due outcome reason hr hu hw =>
    have hrest := h.rest_of_first (ticket?_of_asking hr) ((h.fits a (by simp)).asking hr).2.2
    rw [hw.resolver]
    exact (h.leave (ticket?_of_asking hr)).answered hrest rfl rfl rfl (Nat.le_refl _) nofun
  | @renews _ a n due outcome signed hr hu hw =>
    have hrest := h.rest_of_first (ticket?_of_asking hr) ((h.fits a (by simp)).asking hr).2.2
    rw [hw.resolver]
    exact (h.leave (ticket?_of_asking hr)).answered hrest rfl rfl rfl (Nat.le_succ _)
      fun _ => Nat.lt_succ_self _
  | vanishes hr hw =>
    rw [hw.resolver]
    refine h.replace ?_ rfl rfl (.refl _) nofun
    rw [Option.bind_some, ticket?_of_arriving hr]
    rfl

theorem first_of_isAnswer (h : InLine mark w.resolver (l ++ o.toList ++ r))
    (hd : Deals s w o d w' o') (hans : d.isAnswer = true) :
    ∃ n, w.resolver.line.head? = some n ∧ mark ≤ n := by
  cases hd with
  | @fails _ a _ _ _ _ hr _ _ | @renews _ a _ _ _ _ hr _ _ =>
    obtain ⟨hn, -, hfirst⟩ := (h.fits a (by simp)).asking hr
    exact ⟨_, hfirst, hn⟩
  | aside | begins | enters | waits | asks | leaves | vanishes | quits | abandons => cases hans

end

end InLine

/-! ### Who has the turn -/

section

variable {s : Setting σ τ} {mark n : Nat} {w w' : World σ} {a : Renewal} {l r rs : List Renewal}
  {o o' : Option Renewal} {d : Deed}

/-- With its next turn the renewal calls the renewer. -/
def CallsNext (s : Setting σ τ) (a : Renewal) (w : World σ) : Prop :=
  ∃ a' w', a.step s w = (.moved a', w') ∧ a'.asker? = a.caller? ∧
    w'.resolver.calls = w.resolver.calls + 1

/-- With its next turn the renewal ends or calls the renewer, unless that is still to answer. -/
def Progresses (s : Setting σ τ) (a : Renewal) (w : World σ) : Prop :=
  (∃ b w', a.step s w = (.done b, w')) ∨ CallsNext s a w ∨
    ∃ n due outcome, a.phase = .asking n due outcome ∧ hasCome w.now due = false

/-- Somebody is first in line, and does not wait for anybody else. -/
theorem InLine.progresses (h : InLine mark w.resolver rs)
    (hfirst : w.resolver.line.head? = some n) :
    ∃ a ∈ rs, a.ticket? = some n ∧ Progresses s a w := by
  have hmem : n ∈ tickets rs := h.perm.mem_iff.2 (List.mem_of_mem_head? hfirst)
  obtain ⟨⟨stale, early, phase⟩, ha, hn⟩ := List.mem_filterMap.1 hmem
  refine ⟨_, ha, hn, ?_⟩
  cases phase with
  | arriving => cases hn
  | queued seen m =>
    cases hn
    simp only [Progresses, CallsNext, step, hfirst, beq_self_eq_true, if_true, takeTurn]
    split
    · exact .inl ⟨_, _, rfl⟩
    · split
      · exact .inl ⟨_, _, rfl⟩
      · split
        · exact .inl ⟨_, _, rfl⟩
        · exact .inr (.inl ⟨_, _, rfl, rfl, rfl⟩)
  | asking m due outcome =>
    cases hdue : hasCome w.now due with
    | false => exact .inr (.inr ⟨m, due, outcome, rfl, hdue⟩)
    | true =>
      refine .inl ?_
      simp only [step, hdue, if_true, complete]
      split <;> exact ⟨_, _, rfl⟩

/-- Whoever has this ticket and has not called the renewer is first in line, knows what was
answered, and wants the current URL renewed. -/
structure First (n : Nat) (x : Resolver) (rs : List Renewal) : Prop where
  /-- The ticket was handed out. -/
  issued : n < x.nextTicket
  /-- The one who has it. -/
  first : ∀ a ∈ rs, ∀ {seen : Nat}, a.phase = .queued seen n →
    x.line.head? = some n ∧ seen = x.completed ∧ a.stale.generation = x.current.generation

/-- While somebody else is first in line, the others neither call the renewer nor hear from it. -/
theorem InLine.waits_of_other (h : InLine mark w.resolver (l ++ o.toList ++ r))
    (hd : Deals s w o d w' o') {b : Renewal}
    (hb : b ∈ l ++ (none : Option Renewal).toList ++ r) (hn : b.ticket? = some n)
    (hfirst : w.resolver.line.head? = some n) :
    Resolver.Same w.resolver w'.resolver ∧ w'.resolver.line.head? = some n := by
  -- whoever moves has another ticket, and so is not first in line
  have hother : ∀ {a : Renewal} {m : Nat}, o = some a → a.ticket? = some m → n ≠ m := by
    rintro a m rfl hm rfl
    exact h.ne_of_others hm b hb hn
  have hasking : ∀ {a : Renewal} {m : Nat} {due : Option Nat}
      {outcome : Except Failure FreshUrl}, o = some a → a.phase = .asking m due outcome →
        False := by
    rintro a m due outcome rfl hr
    have hm := ((h.fits a (by simp)).asking hr).2.2
    exact hother rfl (ticket?_of_asking hr) (Option.some.inj (hfirst.symm.trans hm))
  cases hd with
  | aside hw | begins hw | waits hw | vanishes _ hw =>
    rw [hw.resolver]
    exact ⟨.refl _, hfirst⟩
  | enters _ hw =>
    rw [hw.resolver]
    refine ⟨⟨rfl, rfl, rfl, rfl⟩, ?_⟩
    change (w.resolver.line ++ [w.resolver.nextTicket]).head? = some n
    rw [List.head?_append, hfirst]
    rfl
  | asks hr hm | leaves hr hm =>
    exact absurd (Option.some.inj (hfirst.symm.trans hm)) (hother rfl (ticket?_of_queued hr))
  | quits hr hw =>
    rw [hw.resolver]
    exact ⟨⟨rfl, rfl, rfl, rfl⟩, head?_erase hfirst (hother rfl (ticket?_of_queued hr))⟩
  | fails hr | renews hr | abandons hr => exact (hasking rfl hr).elim

theorem First.of_enters {k : Caller} (hline : InLine mark w.resolver (l ++ o.toList ++ r))
    (hempty : w.resolver.line = []) (hd : Deals s w o (.enters k) w' o')
    (hgen : k.stale.generation = w.resolver.current.generation) :
    First k.ticket w'.resolver (l ++ o'.toList ++ r) := by
  obtain ⟨hticket, hnext⟩ := hd.ticket_of_enters
  refine ⟨by omega, fun b hb {seen} hr => ?_⟩
  have hothers : b ∉ l ++ o.toList ++ r := fun hmem => by
    have hin := hline.mem_line hmem (ticket?_of_queued hr)
    rw [hempty] at hin
    cases hin
  cases hd with
  | enters hphase hw =>
    simp only [List.mem_append, Option.mem_toList] at hb hothers
    rcases hb with (hb | hb) | hb
    · exact absurd (.inl (.inl hb)) hothers
    · cases hb
      cases hr
      rw [hw.resolver]
      refine ⟨?_, rfl, hgen⟩
      change (w.resolver.line ++ [w.resolver.nextTicket]).head? = _
      rw [hempty]
      rfl
    · exact absurd (.inr hb) hothers

/-- Whoever is first in line stays so until it has its turn. -/
theorem First.deals (h : First n w.resolver (l ++ o.toList ++ r))
    (hline : InLine mark w.resolver (l ++ o.toList ++ r)) (hd : Deals s w o d w' o') :
    First n w'.resolver (l ++ o'.toList ++ r) := by
  refine ⟨Nat.lt_of_lt_of_le h.issued hd.nextTicket_le, fun b hb {seen} hr => ?_⟩
  have hothers : b ∈ l ++ (none : Option Renewal).toList ++ r →
      w'.resolver.line.head? = some n ∧ seen = w'.resolver.completed ∧
        b.stale.generation = w'.resolver.current.generation := by
    intro hmem
    have hmem' : b ∈ l ++ o.toList ++ r := by
      simp only [Option.toList_none, List.append_nil, List.mem_append] at hmem
      simp only [List.mem_append]
      exact hmem.imp_left .inl
    obtain ⟨hfirst, hseen, hgen⟩ := h.first b hmem' hr
    obtain ⟨hsame, hfirst'⟩ := hline.waits_of_other hd hmem (ticket?_of_queued hr) hfirst
    exact ⟨hfirst', hseen.trans hsame.completed.symm, hgen.trans (by rw [hsame.current])⟩
  simp only [List.mem_append, Option.mem_toList] at hb
  rcases hb with (hb | hb) | hb
  · exact hothers (by simp [hb])
  · cases hd with
    | aside | leaves | fails | renews | vanishes | quits | abandons => cases hb
    | begins | asks =>
      cases hb
      cases hr
    | enters =>
      cases hb
      cases hr
      exact absurd h.issued (Nat.lt_irrefl _)
    | waits hw =>
      cases hb
      rw [hw.resolver]
      exact h.first b (by simp) hr
  · exact hothers (by simp [hb])

theorem First.callsNext {ask : Nat → RenewerReply} (hask : s.renewer = some ask)
    (h : First n w.resolver rs) (ha : a ∈ rs) {seen : Nat} (hr : a.phase = .queued seen n) :
    CallsNext s a w := by
  obtain ⟨hfirst, hseen, hgen⟩ := h.first a ha hr
  obtain ⟨stale, early, phase⟩ := a
  cases hr
  have hgen : stale.generation = w.resolver.current.generation := hgen
  simp only [CallsNext, step, hfirst, beq_self_eq_true, if_true, takeTurn, hgen, Nat.lt_irrefl,
    if_false, sharedFailure, hseen, hask]
  exact ⟨_, _, rfl, rfl, rfl⟩

end

end Renewal

end RemoteFile
