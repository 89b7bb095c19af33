import Mathlib.Algebra.GroupWithZero.Nat
import Mathlib.Data.List.Nodup
import RemoteFile.Connection

/-!
# How far connections have come

A span says of a connection where it began and which byte it yields next. Spans of several
connections are told apart by their numbers. When one connection moves on, the sum of what they
have used up grows by as much.

Main statement:

* `Span.sum_advance` : the sum grows as the one connection moves on.
-/

namespace RemoteFile

/-- The part of the object that a connection has yielded so far. -/
structure Span where
  /-- The number of the connection. -/
  id : Nat
  /-- Its first byte. -/
  start : Nat
  /-- The next byte that it yields. -/
  cursor : Nat
deriving DecidableEq, Repr

namespace Span

/-- A connection that has yielded nothing yet. -/
def opened (c : Connection) : Span := ⟨c.id, c.cursor, c.cursor⟩

/-- How many bytes the connection has yielded. -/
def used (x : Span) : Nat := x.cursor - x.start

/-- The connection has come as far as is told. -/
def Of (c : Connection) (x : Span) : Prop := x.id = c.id ∧ x.cursor = c.cursor

/-- A connection moves on. -/
def advance (c : Connection) (spans : List Span) : List Span :=
  spans.map fun x => if x.id = c.id then { x with cursor := c.cursor } else x

variable {c d : Connection} {spans : List Span} {x : Span}

@[simp]
theorem length_advance : (advance c spans).length = spans.length := List.length_map _

@[simp]
theorem map_id_advance : (advance c spans).map id = spans.map id := by
  rw [advance, List.map_map]
  refine List.map_congr_left fun x _ => ?_
  rw [Function.comp_apply]
  split <;> rfl

theorem exists_of_advance (hid : d.id = c.id) (h : ∃ x ∈ spans, x.Of d) :
    ∃ x ∈ advance c spans, x.Of c := by
  obtain ⟨x, hx, hd⟩ := h
  have hc : x.id = c.id := hd.1.trans hid
  refine ⟨{ x with cursor := c.cursor }, List.mem_map.2 ⟨x, hx, if_pos hc⟩, hc, rfl⟩

theorem exists_of_advance_of_ne (hne : d.id ≠ c.id) (h : ∃ x ∈ spans, x.Of d) :
    ∃ x ∈ advance c spans, x.Of d := by
  obtain ⟨x, hx, hd⟩ := h
  have hc : x.id ≠ c.id := fun heq => hne (hd.1.symm.trans heq)
  exact ⟨x, List.mem_map.2 ⟨x, hx, if_neg hc⟩, hd⟩

theorem mem_advance (h : x ∈ advance c spans) :
    x ∈ spans ∨ ∃ y ∈ spans, y.id = c.id ∧ x = { y with cursor := c.cursor } := by
  obtain ⟨y, hy, rfl⟩ := List.mem_map.1 h
  split
  · rename_i hid
    exact .inr ⟨y, hy, hid, rfl⟩
  · exact .inl hy

theorem forward_advance (hnodup : (spans.map id).Nodup) (hid : d.id = c.id)
    (hcursor : d.cursor ≤ c.cursor) (hforward : ∀ x ∈ spans, x.start ≤ x.cursor)
    (h : ∃ x ∈ spans, x.Of d) : ∀ x ∈ advance c spans, x.start ≤ x.cursor := by
  obtain ⟨y, hy, hyid, hycursor⟩ := h
  intro x hx
  rcases mem_advance hx with hx | ⟨z, hz, hzid, rfl⟩
  · exact hforward x hx
  · have heq : z = y := List.inj_on_of_nodup_map hnodup hz hy (hzid.trans (hyid.trans hid).symm)
    have hle := hforward y hy
    rw [heq]
    exact Nat.le_trans hle (hycursor ▸ hcursor)

theorem advance_of_not_mem (h : c.id ∉ spans.map id) : advance c spans = spans := by
  have hstays : ∀ x ∈ spans, (if x.id = c.id then { x with cursor := c.cursor } else x) = x := by
    intro x hx
    refine if_neg fun heq => h ?_
    rw [← heq]
    exact List.mem_map_of_mem hx
  rw [advance, List.map_congr_left hstays, List.map_id']

/-- **The sum grows as the one connection moves on.** -/
theorem sum_advance {n : Nat} (hnodup : (spans.map id).Nodup) (hid : d.id = c.id)
    (hcursor : c.cursor = d.cursor + n) (hforward : ∀ x ∈ spans, x.start ≤ x.cursor)
    (h : ∃ x ∈ spans, x.Of d) :
    ((advance c spans).map used).sum = (spans.map used).sum + n := by
  obtain ⟨x, hx, hxid, hxcursor⟩ := h
  induction spans with
  | nil => cases hx
  | cons y spans ih =>
    obtain ⟨hy, hrest⟩ := List.nodup_cons.1 hnodup
    have hle := hforward y List.mem_cons_self
    rcases List.mem_cons.1 hx with rfl | hx
    · -- it is the first one, and no other one has its number
      have hnone : advance c spans = spans :=
        advance_of_not_mem (hid ▸ hxid ▸ hy)
      have hfirst : x.id = c.id := hxid.trans hid
      have hcons : advance c (x :: spans) = { x with cursor := c.cursor } :: advance c spans := by
        rw [advance, List.map_cons, if_pos hfirst, advance]
      have hused : { x with cursor := c.cursor }.used = x.used + n := by
        simp only [used]
        omega
      rw [hcons, hnone, List.map_cons, List.sum_cons, List.map_cons, List.sum_cons, hused]
      omega
    · have hne : y.id ≠ c.id := by
        intro heq
        refine hy ?_
        rw [heq, ← hid, ← hxid]
        exact List.mem_map_of_mem hx
      have hcons : advance c (y :: spans) = y :: advance c spans := by
        rw [advance, List.map_cons, if_neg hne, advance]
      rw [hcons, List.map_cons, List.sum_cons, List.map_cons, List.sum_cons,
        ih hrest (fun z hz => hforward z (List.mem_cons_of_mem _ hz)) hx]
      omega

end Span

end RemoteFile
