import Mathlib.Data.List.Basic
import Mathlib.Data.List.Perm.Basic
import RemoteFile.Pool

/-!
# What a read is given by the pool

`Pool.Chosen` lists the four answers of a pool to a read that looks for a connection, each with
its reason and with what is left in the pool. The idle connections are told up to their order,
which `swapRemove` changes.

Main statements:

* `leastBy_spec` : the entry that is found has a key, and no entry has a smaller one.
* `Pool.perm_swapRemove` : taking an entry out loses nothing else.
* `Pool.chosen` : a read gets what `Pool.Chosen` lists.
-/

namespace RemoteFile

/-- The least entry is the head, which wins against an equal one, or it is that of the rest. -/
theorem leastBy_cons_eq_some {α : Type} {key : α → Option Nat} {a : α} {r : List α} {i k : Nat}
    (h : leastBy key (a :: r) = some (i, k)) :
    (i = 0 ∧ key a = some k ∧ ∀ j m, leastBy key r = some (j, m) → k ≤ m) ∨
      ∃ j, i = j + 1 ∧ leastBy key r = some (j, k) ∧ ∀ n, key a = some n → k ≤ n := by
  rw [leastBy] at h
  split at h
  · rename_i ha
    obtain ⟨⟨j, m⟩, hr, heq⟩ := Option.map_eq_some_iff.1 h
    cases heq
    exact .inr ⟨j, rfl, hr, by simp [ha]⟩
  · rename_i n ha hr
    cases h
    exact .inl ⟨rfl, ha, by simp [hr]⟩
  · rename_i n j m ha hr
    split at h <;> rename_i hle <;> cases h
    · exact .inl ⟨rfl, ha, by simpa [hr] using hle⟩
    · exact .inr ⟨j, rfl, hr, by simpa [ha] using Nat.le_of_not_le hle⟩

/-- The entry that `leastBy` finds is there, has the key that is told, and has the least key. -/
theorem leastBy_spec {α : Type} {key : α → Option Nat} {l : List α} {i k : Nat}
    (h : leastBy key l = some (i, k)) :
    ∃ a, l[i]? = some a ∧ key a = some k ∧ ∀ b ∈ l, ∀ n, key b = some n → k ≤ n := by
  induction l generalizing i k with
  | nil => cases h
  | cons a r ih =>
    rcases leastBy_cons_eq_some h with ⟨rfl, ha, hrest⟩ | ⟨j, rfl, hr, hhead⟩
    · refine ⟨a, rfl, ha, fun b hb n hn => ?_⟩
      rcases List.mem_cons.1 hb with rfl | hb
      · rw [ha] at hn
        cases hn
        exact Nat.le_refl _
      · -- the rest has an entry with a key, and so it has a least one
        cases hr : leastBy key r with
        | none =>
          rw [leastBy_eq_none_iff.1 hr b hb] at hn
          cases hn
        | some p =>
          obtain ⟨-, -, -, hmin⟩ := ih hr
          exact Nat.le_trans (hrest _ _ hr) (hmin b hb n hn)
    · obtain ⟨b, hb, hkey, hmin⟩ := ih hr
      refine ⟨b, by simpa using hb, hkey, fun d hd n hn => ?_⟩
      rcases List.mem_cons.1 hd with rfl | hd
      · exact hhead n hn
      · exact hmin d hd n hn

namespace Pool

variable {o : PoolOptions} {offset : Nat} {p q : Pool} {c : Connection} {choice : Choice}

open List in
theorem perm_swapRemove {α : Type} {l : List α} {i : Nat} {a : α} (h : l[i]? = some a) :
    l ~ a :: swapRemove l i := by
  obtain ⟨hi, rfl⟩ := List.getElem?_eq_some_iff.1 h
  have hne : l ≠ [] := List.ne_nil_of_length_pos (by omega)
  have hlast : l.getLast? = some (l.getLast hne) := List.getLast?_eq_some_getLast hne
  have hl : l ~ l.getLast hne :: l.dropLast := by
    conv_lhs => rw [← List.dropLast_append_getLast hne]
    exact perm_append_singleton _ _
  simp only [swapRemove, hlast]
  by_cases hlt : i < l.dropLast.length
  · -- the last entry takes the place of the one that is taken out
    have hget : l.dropLast[i] = l[i] := List.getElem_dropLast _
    calc l ~ l.getLast hne :: l.dropLast := hl
      _ = l.getLast hne :: (l.dropLast.take i ++ l[i] :: l.dropLast.drop (i + 1)) := by
          rw [← hget, ← List.drop_eq_getElem_cons hlt, List.take_append_drop]
      _ ~ l.getLast hne :: l[i] :: (l.dropLast.take i ++ l.dropLast.drop (i + 1)) :=
          perm_middle.cons _
      _ ~ l[i] :: l.getLast hne :: (l.dropLast.take i ++ l.dropLast.drop (i + 1)) :=
          Perm.swap _ _ _
      _ ~ l[i] :: l.dropLast.set i (l.getLast hne) := by
          rw [List.set_eq_take_append_cons_drop, if_pos hlt]
          exact perm_middle.symm.cons _
  · -- it is the last entry itself
    have hi' : i = l.length - 1 := by
      simp only [List.length_dropLast] at hlt
      omega
    have hget : l[i] = l.getLast hne := by
      simp only [List.getLast_eq_getElem, hi']
    rw [List.set_eq_of_length_le (by omega), hget]
    exact hl

theorem take_eq_some {i : Nat} (h : p.take i = some (c, q)) :
    p.idle[i]? = some c ∧ q = { p with idle := swapRemove p.idle i } := by
  obtain ⟨d, hd, heq⟩ := Option.map_eq_some_iff.1 h
  cases heq
  exact ⟨hd, rfl⟩

theorem skipFor_eq_some_iff {maxSkip n : Nat} :
    c.skipFor offset maxSkip = some n ↔
      c.cursor ≤ offset ∧ offset < c.stop ∧ offset - c.cursor ≤ maxSkip ∧ n = offset - c.cursor :=
  bytesToSkip_eq_some_iff

/-- What a pool without stale connections gives to a read, and what is left of it. -/
inductive Chosen (o : PoolOptions) (offset : Nat) (p : Pool) : Choice → Pool → Prop
  /-- The idle connection that has to skip the least. -/
  | reuse {c : Connection} {rest : List Connection} {skip : Nat}
      (hskip : c.skipFor offset o.maxSkip = some skip) (hidle : p.idle.Perm (c :: rest))
      (hleast : ∀ d ∈ p.idle, ∀ n, d.skipFor offset o.maxSkip = some n → skip ≤ n) :
      Chosen o offset p (.reuse c skip) { p with idle := rest }
  /-- A slot that was free, as no idle connection can serve the read. -/
  | reserve (hnone : ∀ c ∈ p.idle, c.skipFor offset o.maxSkip = none)
      (hroom : p.live < o.maxConns) : Chosen o offset p .reserve p.reserve
  /-- The slot of the connection that was idle for the longest, as none is free. -/
  | replace {c : Connection} {rest : List Connection}
      (hnone : ∀ c ∈ p.idle, c.skipFor offset o.maxSkip = none) (hfull : o.maxConns ≤ p.live)
      (hidle : p.idle.Perm (c :: rest)) (hold : ∀ d ∈ p.idle, c.lastUsed ≤ d.lastUsed) :
      Chosen o offset p (.replace c) { p with idle := rest }
  /-- Nothing, as every slot is in use. -/
  | wait (hidle : p.idle = []) (hfull : o.maxConns ≤ p.live) : Chosen o offset p .wait p

/-- **What a read is given.**  The pool chooses what `Chosen` lists. -/
theorem chosen (h : p.choose o offset = (choice, q)) : Chosen o offset p choice q := by
  simp only [choose] at h
  split at h
  · rename_i d rest skip hbest
    cases h
    obtain ⟨⟨i, k⟩, hi, hb⟩ := Option.bind_eq_some_iff.1 hbest
    obtain ⟨t, ht, heq⟩ := Option.map_eq_some_iff.1 hb
    cases heq
    obtain ⟨hget, rfl⟩ := take_eq_some ht
    obtain ⟨a, ha, hkey, hmin⟩ := leastBy_spec hi
    rw [hget] at ha
    cases ha
    exact .reuse hkey (perm_swapRemove hget) hmin
  · rename_i hbest
    -- the entry that `leastBy` finds is there to be taken, so that it has found none
    have hnone : ∀ c ∈ p.idle, c.skipFor offset o.maxSkip = none := by
      cases hb : p.best o offset with
      | none => exact leastBy_eq_none_iff.1 hb
      | some b =>
        obtain ⟨a, ha, -⟩ := leastBy_spec hb
        simp [hb, take, ha] at hbest
    split at h
    · rename_i hroom
      cases h
      exact .reserve hnone hroom
    · rename_i hroom
      have hfull := Nat.le_of_not_lt hroom
      split at h
      · rename_i d rest hold
        cases h
        obtain ⟨⟨i, k⟩, hi, ht⟩ := Option.bind_eq_some_iff.1 hold
        obtain ⟨hget, rfl⟩ := take_eq_some ht
        obtain ⟨a, ha, hkey, hmin⟩ := leastBy_spec hi
        rw [hget] at ha
        cases ha
        cases hkey
        exact .replace hnone hfull (perm_swapRemove hget) fun b hb => hmin b hb _ rfl
      · rename_i hold
        cases h
        refine .wait ?_ hfull
        -- every idle connection has a last use, so that only an empty list has no oldest one
        cases hb : p.oldest with
        | none =>
          refine List.eq_nil_iff_forall_not_mem.2 fun c hc => ?_
          cases leastBy_eq_none_iff.1 hb c hc
        | some b =>
          obtain ⟨a, ha, -⟩ := leastBy_spec hb
          simp [hb, take, ha] at hold

end Pool

end RemoteFile
