import Mathlib.Algebra.Order.Interval.Set.SuccPred
import Mathlib.Data.Nat.SuccPred
import Mathlib.Order.Interval.Set.LinearOrder
import RemoteFile.Proofs.Range.Header

/-!
# Which ranges a content range answers

A partial response answers a range if it holds exactly the bytes that were asked for: those from the
start of the range on, before its end if it has one, and before the end of the object if that is
known. An end that is not above the start counts as none. Where neither end is known, it is enough
that the response starts where the range does.

The comparison is made on the ends only. It comes to the same as comparing the bytes, because the
span of a response is never empty and the greatest position is no end.

Main statements:

* `ContentRange.covers_iff` : what it takes for a span to answer a range.
* `ContentRange.wanted_eq_Ico` : the bytes that were asked for are those up to the wanted end.
* `ContentRange.covers_iff_same_bytes` : a span answers a range if it holds the same bytes.
-/

namespace RemoteFile

/-- Both ends are positions. -/
structure ByteRange.Fits (r : ByteRange) : Prop where
  /-- The first byte. -/
  start : r.start < positionLimit
  /-- The byte after the last one. -/
  stop : ∀ stop, r.stop = some stop → stop < positionLimit

theorem ByteRange.namedStop_eq_some_iff {r : ByteRange} {stop : Nat} :
    r.namedStop = some stop ↔ r.stop = some stop ∧ r.start < stop := by
  simp [namedStop, Option.filter_eq_some_iff]

theorem ByteRange.namedStop_eq_none_iff {r : ByteRange} :
    r.namedStop = none ↔ ∀ stop, r.stop = some stop → stop ≤ r.start := by
  simp [namedStop, Option.filter_eq_none_iff]

namespace ContentRange

/-- The span up to `last` starts where the range does, and runs exactly to the end of what was asked
for: to the end of the range if it has one, but not past the complete length, and else to the
complete length. If neither is known, any end will do. -/
structure Meets (c : ContentRange) (range : ByteRange) (last : Nat) : Prop where
  /-- The span starts where the range does. -/
  span : c.span = some (range.start, last)
  /-- The range has an end. -/
  bounded : ∀ stop, range.stop = some stop → range.start < stop →
    last + 1 = min stop (c.total.getD stop)
  /-- The range has none, or one that is not above its start. -/
  unbounded : (∀ stop, range.stop = some stop → stop ≤ range.start) →
    ∀ total, c.total = some total → last + 1 = total

/-- The end that a response has to reach is the one that was asked for, clamped to the complete
length. -/
theorem wantedStop_of_named {c : ContentRange} {range : ByteRange} {stop : Nat}
    (h : range.namedStop = some stop) :
    c.wantedStop range = some (min stop (c.total.getD stop)) := by
  rw [wantedStop, h]
  cases c.total with
  | none => simp
  | some total => rfl

theorem wantedStop_of_unnamed {c : ContentRange} {range : ByteRange}
    (h : range.namedStop = none) : c.wantedStop range = c.total := by
  rw [wantedStop, h]

/-- A span answers a range if it starts where the range does and, as far as the end is known, ends
there. -/
theorem covers_of_span {c : ContentRange} {range : ByteRange} {first last : Nat}
    (h : c.span = some (first, last)) :
    c.covers range = true ↔ first = range.start ∧
      ∀ stop, c.wantedStop range = some stop → last + 1 < positionLimit ∧ last + 1 = stop := by
  simp only [covers, h]
  cases c.wantedStop range <;> simp

/-- What it takes for a span to answer a range. -/
theorem covers_iff {c : ContentRange} {range : ByteRange} (hc : c.Fits) (hr : range.Fits) :
    c.covers range = true ↔ ∃ last, c.Meets range last := by
  obtain ⟨span, total⟩ := c
  cases span with
  | none => exact ⟨nofun, fun ⟨_, hm⟩ => nomatch hm.span⟩
  | some p =>
    obtain ⟨first, last⟩ := p
    rw [covers_of_span rfl]
    constructor
    · rintro ⟨rfl, hstop⟩
      refine ⟨last, rfl, fun stop hs hlt => ?_, fun hnone n hn => ?_⟩
      · exact (hstop _ (wantedStop_of_named (range.namedStop_eq_some_iff.2 ⟨hs, hlt⟩))).2
      · refine (hstop n ?_).2
        rw [wantedStop_of_unnamed (range.namedStop_eq_none_iff.2 hnone)]
        exact hn
    · rintro ⟨last', hm⟩
      cases hm.span
      refine ⟨rfl, fun stop hstop => ?_⟩
      -- the end is a position, since both the range and the complete length fit
      cases hn : range.namedStop with
      | some named =>
        obtain ⟨hs, hlt⟩ := range.namedStop_eq_some_iff.1 hn
        rw [wantedStop_of_named hn] at hstop
        cases hstop
        have hlast := hm.bounded named hs hlt
        have hnamed := hr.stop named hs
        omega
      | none =>
        rw [wantedStop_of_unnamed hn] at hstop
        have hlast := hm.unbounded (range.namedStop_eq_none_iff.1 hn) stop hstop
        have htotal := hc.total stop hstop
        omega

/-! ### The bytes of a range -/

/-- What can be said of every content range that is read: its numbers are positions, and the ends of
its span are in order. -/
structure Orderly (c : ContentRange) : Prop where
  /-- The numbers are positions. -/
  fits : c.Fits
  /-- The ends of the span are in order. -/
  ordered : ∀ first last, c.span = some (first, last) → first ≤ last

theorem Orderly.of_parse {value : String} {c : ContentRange} (h : parse value = .ok c) :
    c.Orderly :=
  have hread := parse_eq_ok_iff.1 h
  ⟨.of_parse hread, (Valid.of_parse hread).ordered⟩

/-- The bytes that were asked for, as far as the object has them. -/
def wanted (c : ContentRange) (range : ByteRange) : Set Nat :=
  { b | range.start ≤ b ∧ (∀ stop, range.stop = some stop → range.start < stop → b < stop) ∧
    ∀ total, c.total = some total → b < total }

/-- It is known where the bytes that were asked for end: the range has an end above its start, or
the complete length is given. -/
def EndKnown (c : ContentRange) (range : ByteRange) : Prop :=
  (∃ stop, range.stop = some stop ∧ range.start < stop) ∨ ∃ total, c.total = some total

variable {c : ContentRange} {range : ByteRange} {stop : Nat}

theorem endKnown_iff : c.EndKnown range ↔ ∃ stop, c.wantedStop range = some stop := by
  simp only [EndKnown, ← ByteRange.namedStop_eq_some_iff]
  cases hn : range.namedStop with
  | some named => simp [wantedStop_of_named hn]
  | none => simp [wantedStop_of_unnamed hn]

/-- The bytes that were asked for are those from the start of the range up to the wanted end. -/
theorem wanted_eq_Ico (h : c.wantedStop range = some stop) :
    c.wanted range = Set.Ico range.start stop := by
  ext b
  simp only [wanted, Set.mem_ofPred_eq, Set.mem_Ico, and_congr_right_iff]
  intro _
  cases hn : range.namedStop with
  | some named =>
    rw [wantedStop_of_named hn, Option.some.injEq] at h
    obtain ⟨hstop, hlt⟩ := range.namedStop_eq_some_iff.1 hn
    cases htotal : c.total <;> simp [htotal, hstop, hlt] at h ⊢ <;> omega
  | none =>
    rw [wantedStop_of_unnamed hn] at h
    have hnone := range.namedStop_eq_none_iff.1 hn
    constructor
    · exact fun hb => hb.2 stop h
    · refine fun hb => ⟨fun named hs hlt => ?_, fun n hn => ?_⟩
      · exact absurd hlt (Nat.not_lt.2 (hnone named hs))
      · rw [h] at hn
        cases hn
        exact hb

theorem Icc_eq_Ico_iff {first last start stop : Nat} (h : first ≤ last) :
    Set.Icc first last = Set.Ico start stop ↔ first = start ∧ last + 1 = stop := by
  have hlt : first < last + 1 := by omega
  rw [← Set.Ico_add_one_right_eq_Icc, Set.Ico_eq_Ico_iff (.inl hlt)]

theorem wantedStop_lt (hc : c.Fits) (hr : range.Fits) (h : c.wantedStop range = some stop) :
    stop < positionLimit := by
  cases hn : range.namedStop with
  | some named =>
    rw [wantedStop_of_named hn, Option.some.injEq] at h
    have hnamed := hr.stop named (range.namedStop_eq_some_iff.1 hn).1
    omega
  | none =>
    rw [wantedStop_of_unnamed hn] at h
    exact hc.total stop h

theorem covers_iff_Icc_eq {first last : Nat} (hc : c.Orderly) (hr : range.Fits)
    (hspan : c.span = some (first, last)) (h : c.wantedStop range = some stop) :
    c.covers range = true ↔ Set.Icc first last = c.wanted range := by
  have hlt := wantedStop_lt hc.fits hr h
  rw [covers_of_span hspan, wanted_eq_Ico h, Icc_eq_Ico_iff (hc.ordered _ _ hspan)]
  refine and_congr_right fun _ => ⟨fun hends => (hends stop h).2, fun hlast stop' h' => ?_⟩
  rw [h, Option.some.injEq] at h'
  omega

/-- **A content range answers a range if it holds the same bytes.**  For every content range that
can be read and every range of 64 bits: if it is known where the bytes that were asked for end, then
the span answers the range if and only if it holds exactly these bytes; so it does not if none were
asked for, if it goes beyond the complete length, or if its last byte is the greatest position. If
neither end is known, it answers the range if and only if it starts where the range does. Without a
span nothing is answered. -/
theorem covers_iff_same_bytes :
    (∀ value c, parse value = .ok c → c.Orderly) ∧
      ∀ (c : ContentRange) (range : ByteRange), c.Orderly → range.Fits →
        (c.span = none → c.covers range = false) ∧
        ∀ first last, c.span = some (first, last) →
          (c.EndKnown range →
            (c.covers range = true ↔ Set.Icc first last = c.wanted range) ∧
            (c.wanted range = ∅ ∨ (∃ total, c.total = some total ∧ total ≤ last) ∨
              last = positionLimit - 1 → c.covers range = false)) ∧
          (¬ c.EndKnown range → (c.covers range = true ↔ first = range.start)) := by
  refine ⟨fun _ _ => .of_parse, fun c range hc hr => ⟨fun hnone => ?_, fun first last hspan => ?_⟩⟩
  · simp only [covers, hnone]
  · refine ⟨fun hknown => ?_, fun hunknown => ?_⟩
    · obtain ⟨stop, hstop⟩ := endKnown_iff.1 hknown
      have hiff := covers_iff_Icc_eq hc hr hspan hstop
      refine ⟨hiff, fun hout => ?_⟩
      -- the last byte of the span is one that was asked for, if the span answers the range
      rw [← Bool.not_eq_true, hiff]
      intro hsame
      have hmem : last ∈ c.wanted range :=
        hsame ▸ Set.right_mem_Icc.2 (hc.ordered _ _ hspan)
      rcases hout with hempty | ⟨total, htotal, hle⟩ | hgreatest
      · rw [hempty] at hmem
        exact hmem
      · have hlt := hmem.2.2 total htotal
        omega
      · have hlt := wantedStop_lt hc.fits hr hstop
        rw [wanted_eq_Ico hstop] at hmem
        have hbelow := hmem.2
        omega
    · rw [covers_of_span hspan]
      refine ⟨And.left, fun hstart => ⟨hstart, fun stop hstop => ?_⟩⟩
      exact absurd (endKnown_iff.2 ⟨stop, hstop⟩) hunknown

/-- The last ten bytes of an object of 110 bytes. -/
def lastTen : ContentRange := ⟨some (100, 109), some 110⟩

theorem parse_lastTen : parse "bytes 100-109/110" = .ok lastTen := by
  rw [parse_eq_ok_iff]
  rfl

/-- The last ten bytes are the ones that are asked for from 100 up to 120 or up to 110, with an end
that is not above the start or with none, but not the ones up to 105. -/
theorem covers_iff_same_bytes_of_lastTen :
    (∀ stop ∈ [some 120, some 110, some 100, none],
      Set.Icc 100 109 = lastTen.wanted ⟨100, stop⟩) ∧
      Set.Icc 100 109 ≠ lastTen.wanted ⟨100, some 105⟩ := by
  have hc : lastTen.Orderly := covers_iff_same_bytes.1 _ _ parse_lastTen
  have hknown : ∀ {range}, lastTen.EndKnown range := .inr ⟨110, rfl⟩
  have hstart : 100 < positionLimit := by decide
  have hiff : ∀ {stop : Option Nat}, (∀ n, stop = some n → n < positionLimit) →
      (lastTen.covers ⟨100, stop⟩ = true ↔ Set.Icc 100 109 = lastTen.wanted ⟨100, stop⟩) :=
    fun hstop => (((covers_iff_same_bytes.2 _ _ hc ⟨hstart, hstop⟩).2 _ _ rfl).1 hknown).1
  refine ⟨fun stop hmem => (hiff ?_).1 ?_, fun hsame => ?_⟩
  · rintro n rfl
    simp only [List.mem_cons, Option.some.injEq, List.not_mem_nil, or_false, reduceCtorEq] at hmem
    rcases hmem with rfl | rfl | rfl <;> decide
  · simp only [List.mem_cons, List.not_mem_nil, or_false] at hmem
    rcases hmem with rfl | rfl | rfl | rfl <;> decide
  · have hcovers := (hiff (by rintro n ⟨⟩; decide)).2 hsame
    exact absurd hcovers (by decide)

end ContentRange

end RemoteFile
