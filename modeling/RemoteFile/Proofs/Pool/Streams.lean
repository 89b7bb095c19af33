import Mathlib.Data.List.Dedup
import RemoteFile.File.Read
import RemoteFile.Proofs.Pool.Crowd

/-!
# Streams of reads

Reads that are made one after the other belong to streams, which are told apart by names. Where the
latest read of a stream has ended, the stream ends for now; its next read is to begin there or a
little later, and so near to the end of no other stream. Then the connection that was left at that
place is the only one that can serve the read.

Main statements:

* `ReadStream.nodup_after` : no two streams have the same name.
* `ReadStream.perm_own` : a stream and the others are all streams.
* `ReadStream.length_after_cons` : a read is the first one of a stream, or there are no more streams
  than before.
-/

namespace RemoteFile

/-- One of several streams of reads. -/
structure ReadStream where
  /-- Its name. -/
  name : Nat
  /-- The number of the connection that its first read has opened. -/
  conn : Nat
  /-- Where its latest read has ended. -/
  stop : Nat
deriving DecidableEq, Repr

namespace ReadStream

/-- The stream with a name, if it has started. -/
def own? (i : Nat) (streams : List ReadStream) : Option ReadStream :=
  streams.find? (·.name == i)

/-- All other streams. -/
def others (i : Nat) (streams : List ReadStream) : List ReadStream :=
  streams.filter (·.name != i)

/-- A stream after one more read. Connections are numbered as the streams start. -/
def next (size : Nat) (streams : List ReadStream) (i : Nat) (k : Wanted) : ReadStream where
  name := i
  conn := (own? i streams).elim (streams.length + 1) conn
  stop := k.offset + FileRead.available size k.offset k.len

/-- How many bytes lie between the end of a stream and its next read. -/
def gap (streams : List ReadStream) (i : Nat) (k : Wanted) : Nat :=
  (own? i streams).elim 0 (k.offset - ·.stop)

/-- The streams after some reads, each of which has the name of its stream, the latest first. -/
def after (size : Nat) : List (Nat × Wanted) → List ReadStream
  | [] => []
  | (i, k) :: reads => next size (after size reads) i k :: others i (after size reads)

/-- The sum of all gaps. -/
def gaps (size : Nat) : List (Nat × Wanted) → Nat
  | [] => 0
  | (i, k) :: reads => gaps size reads + gap (after size reads) i k

/-- The connections of the streams that have not come to the end of the object, each by its number
and with its cursor. -/
def berths (size : Nat) (streams : List ReadStream) : List (Nat × Nat) :=
  (streams.filter (·.stop < size)).map fun x => (x.conn, x.stop)

/-- The position is the end of the stream, or so little after it that the bytes between are
skipped. -/
def Reaches (maxSkip offset : Nat) (x : ReadStream) : Prop :=
  x.stop ≤ offset ∧ offset - x.stop ≤ maxSkip

instance (maxSkip offset : Nat) (x : ReadStream) : Decidable (x.Reaches maxSkip offset) :=
  inferInstanceAs (Decidable (_ ∧ _))

/-- A read that a stream may make next. -/
structure Allows (size maxSkip : Nat) (streams : List ReadStream) (i : Nat) (k : Wanted) :
    Prop where
  /-- There is a byte at the position. -/
  inside : k.offset < size
  /-- Something is wanted. -/
  wanted : 0 < k.len
  /-- It goes on where its stream has ended. -/
  own : ∀ x ∈ streams, x.name = i → x.Reaches maxSkip k.offset
  /-- No other stream has ended there. -/
  others : ∀ x ∈ streams, x.name ≠ i → ¬ x.Reaches maxSkip k.offset

theorem allows_iff {size maxSkip : Nat} {streams : List ReadStream} {i : Nat} {k : Wanted} :
    Allows size maxSkip streams i k ↔ k.offset < size ∧ 0 < k.len ∧
      (∀ x ∈ streams, x.name = i → x.Reaches maxSkip k.offset) ∧
      ∀ x ∈ streams, x.name ≠ i → ¬ x.Reaches maxSkip k.offset :=
  ⟨fun h => ⟨h.inside, h.wanted, h.own, h.others⟩, fun h => ⟨h.1, h.2.1, h.2.2.1, h.2.2.2⟩⟩

instance (size maxSkip : Nat) (streams : List ReadStream) (i : Nat) (k : Wanted) :
    Decidable (Allows size maxSkip streams i k) :=
  decidable_of_iff' _ allows_iff

/-- All these reads, the latest first, were allowed when they were made. -/
inductive Orderly (size maxSkip : Nat) : List (Nat × Wanted) → Prop
  /-- No stream has started. -/
  | nil : Orderly size maxSkip []
  /-- One more read. -/
  | cons {reads : List (Nat × Wanted)} {i : Nat} {k : Wanted} (h : Orderly size maxSkip reads)
      (hk : Allows size maxSkip (after size reads) i k) : Orderly size maxSkip ((i, k) :: reads)

variable {size maxSkip i : Nat} {streams : List ReadStream} {x : ReadStream} {k : Wanted}
  {reads : List (Nat × Wanted)}

theorem mem_of_own? (h : own? i streams = some x) : x ∈ streams ∧ x.name = i :=
  ⟨List.mem_of_find?_eq_some h, by simpa using List.find?_some h⟩

theorem own?_eq_none_iff : own? i streams = none ↔ ∀ x ∈ streams, x.name ≠ i := by
  simp [own?]

theorem mem_others : x ∈ others i streams ↔ x ∈ streams ∧ x.name ≠ i := by
  simp [others]

theorem others_of_own?_eq_none (h : own? i streams = none) : others i streams = streams := by
  refine List.filter_eq_self.2 fun y hy => ?_
  exact bne_iff_ne.2 (own?_eq_none_iff.1 h y hy)

theorem conn_next_of_own (h : own? i streams = some x) :
    (next size streams i k).conn = x.conn := by
  rw [next, h, Option.elim_some]

theorem conn_next_of_first (h : own? i streams = none) :
    (next size streams i k).conn = streams.length + 1 := by
  rw [next, h, Option.elim_none]

theorem gaps_cons_of_own (h : own? i (after size reads) = some x) :
    gaps size ((i, k) :: reads) = gaps size reads + (k.offset - x.stop) := by
  rw [gaps, gap, h, Option.elim_some]

theorem gaps_cons_of_first (h : own? i (after size reads) = none) :
    gaps size ((i, k) :: reads) = gaps size reads := by
  rw [gaps, gap, h, Option.elim_none, Nat.add_zero]

/-- No two streams have the same name. -/
theorem nodup_after (size : Nat) (reads : List (Nat × Wanted)) :
    ((after size reads).map name).Nodup := by
  induction reads with
  | nil => exact List.nodup_nil
  | cons read reads ih =>
    obtain ⟨i, k⟩ := read
    refine List.nodup_cons.2 ⟨fun hi => ?_, ih.sublist (List.filter_sublist.map name)⟩
    obtain ⟨y, hy, hname⟩ := List.mem_map.1 hi
    exact (mem_others.1 hy).2 hname

/-- A stream and the others are all streams. -/
theorem perm_own (hnodup : (streams.map name).Nodup) (h : own? i streams = some x) :
    streams.Perm (x :: others i streams) := by
  induction streams with
  | nil => cases h
  | cons y streams ih =>
    obtain ⟨hy, hrest⟩ := List.nodup_cons.1 hnodup
    rw [own?, List.find?_cons] at h
    cases hname : y.name == i with
    | true =>
      -- it is the first one, and no other one has its name
      rw [hname] at h
      cases h
      have hnone : own? i streams = none := own?_eq_none_iff.2 fun z hz heq =>
        hy (List.mem_map.2 ⟨z, hz, heq.trans (beq_iff_eq.1 hname).symm⟩)
      have hothers : others i (x :: streams) = others i streams :=
        List.filter_cons_of_neg (by simpa using hname)
      rw [hothers, others_of_own?_eq_none hnone]
    | false =>
      rw [hname] at h
      have hothers : others i (y :: streams) = y :: others i streams :=
        List.filter_cons_of_pos (by simpa using hname)
      rw [hothers]
      exact ((ih hrest h).cons y).trans (.swap x y _)

/-- A read is the first one of a stream, or there are no more streams than before. -/
theorem length_after_cons (size : Nat) (reads : List (Nat × Wanted)) (i : Nat) (k : Wanted) :
    (after size ((i, k) :: reads)).length =
      (after size reads).length + if own? i (after size reads) = none then 1 else 0 := by
  have hcons : (after size ((i, k) :: reads)).length = (others i (after size reads)).length + 1 :=
    List.length_cons
  rw [hcons]
  cases h : own? i (after size reads) with
  | none => rw [others_of_own?_eq_none h, if_pos rfl]
  | some x =>
    have hperm := (perm_own (nodup_after size reads) h).length_eq
    rw [List.length_cons] at hperm
    rw [hperm, if_neg (Option.some_ne_none x), Nat.add_zero]

theorem length_after_le (size : Nat) (reads : List (Nat × Wanted)) (i : Nat) (k : Wanted) :
    (after size reads).length ≤ (after size ((i, k) :: reads)).length := by
  rw [length_after_cons]
  exact Nat.le_add_right _ _

theorem mem_names_after {size : Nat} {reads : List (Nat × Wanted)} {j : Nat} :
    j ∈ (after size reads).map name ↔ j ∈ reads.map Prod.fst := by
  induction reads with
  | nil => exact .rfl
  | cons read reads ih =>
    obtain ⟨i, k⟩ := read
    have hothers : j ∈ (others i (after size reads)).map name ↔
        j ∈ (after size reads).map name ∧ j ≠ i := by
      simp only [List.mem_map, mem_others]
      constructor
      · rintro ⟨x, ⟨hx, hne⟩, rfl⟩
        exact ⟨⟨x, hx, rfl⟩, hne⟩
      · rintro ⟨⟨x, hx, rfl⟩, hne⟩
        exact ⟨x, ⟨hx, hne⟩, rfl⟩
    rw [after, List.map_cons, List.mem_cons, hothers, ih, List.map_cons, List.mem_cons]
    by_cases hj : j = i
    · exact ⟨fun _ => .inl hj, fun _ => .inl hj⟩
    · exact or_congr_right (and_iff_left hj)

theorem length_after (size : Nat) (reads : List (Nat × Wanted)) :
    (after size reads).length = (reads.map Prod.fst).dedup.length := by
  have hperm : ((after size reads).map name).Perm (reads.map Prod.fst).dedup := by
    refine (List.perm_ext_iff_of_nodup (nodup_after size reads) (List.nodup_dedup _)).2 fun j => ?_
    rw [mem_names_after, List.mem_dedup]
  rw [← hperm.length_eq, List.length_map]

theorem conn_le_length_after (size : Nat) (reads : List (Nat × Wanted)) :
    ∀ x ∈ after size reads, x.conn ≤ (after size reads).length := by
  induction reads with
  | nil => exact nofun
  | cons read reads ih =>
    obtain ⟨i, k⟩ := read
    have hlength := length_after_cons size reads i k
    have hle := length_after_le size reads i k
    intro x hx
    rcases List.mem_cons.1 hx with rfl | hx
    · cases hown : own? i (after size reads) with
      | none =>
        rw [hown, if_pos rfl] at hlength
        exact Nat.le_of_eq ((conn_next_of_first hown).trans hlength.symm)
      | some y =>
        rw [conn_next_of_own hown]
        exact Nat.le_trans (ih y (mem_of_own? hown).1) hle
    · exact Nat.le_trans (ih x (mem_others.1 hx).1) hle

theorem nodup_conn_after (size : Nat) (reads : List (Nat × Wanted)) :
    ((after size reads).map conn).Nodup := by
  induction reads with
  | nil => exact List.nodup_nil
  | cons read reads ih =>
    obtain ⟨i, k⟩ := read
    refine List.nodup_cons.2 ⟨?_, ih.sublist (List.filter_sublist.map conn)⟩
    cases hown : own? i (after size reads) with
    | none =>
      -- the number is new
      rw [conn_next_of_first hown]
      intro hmem
      obtain ⟨x, hx, hconn⟩ := List.mem_map.1 hmem
      have hle := conn_le_length_after size reads x (mem_others.1 hx).1
      omega
    | some y =>
      rw [conn_next_of_own hown]
      have hperm := (perm_own (nodup_after size reads) hown).map conn
      exact (List.nodup_cons.1 (hperm.nodup_iff.1 ih)).1

theorem length_after_le_length (size : Nat) (reads : List (Nat × Wanted)) :
    (after size reads).length ≤ reads.length := by
  induction reads with
  | nil => exact Nat.le_refl 0
  | cons read reads ih =>
    obtain ⟨i, k⟩ := read
    rw [length_after_cons, List.length_cons]
    split <;> omega

theorem mem_berths {n cursor : Nat} :
    (n, cursor) ∈ berths size streams ↔
      ∃ x ∈ streams, x.stop < size ∧ x.conn = n ∧ x.stop = cursor := by
  simp [berths, and_assoc]

theorem length_berths_le : (berths size streams).length ≤ streams.length := by
  rw [berths, List.length_map]
  exact List.length_filter_le _ _

theorem perm_berths (hnodup : (streams.map name).Nodup) (h : own? i streams = some x)
    (hx : x.stop < size) :
    (berths size streams).Perm ((x.conn, x.stop) :: berths size (others i streams)) := by
  have hperm := ((perm_own hnodup h).filter (·.stop < size)).map fun x => (x.conn, x.stop)
  rw [List.filter_cons, if_pos (decide_eq_true hx)] at hperm
  exact hperm

theorem Allows.eq_own (h : Allows size maxSkip streams i k) (hx : x ∈ streams)
    (hreaches : x.Reaches maxSkip k.offset) : x.name = i := by
  by_contra hne
  exact h.others x hx hne hreaches

theorem own?_of_mem (hnodup : (streams.map name).Nodup) (hx : x ∈ streams) (hname : x.name = i) :
    own? i streams = some x := by
  cases h : own? i streams with
  | none => exact absurd hname (own?_eq_none_iff.1 h x hx)
  | some y =>
    obtain ⟨hy, hyname⟩ := mem_of_own? h
    rw [List.inj_on_of_nodup_map hnodup hy hx (hyname.trans hname.symm)]

end ReadStream

end RemoteFile
