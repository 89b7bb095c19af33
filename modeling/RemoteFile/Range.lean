import RemoteFile.Words

/-!
# Byte ranges

Positions and lengths count bytes and are below `2 ^ 64`. A `ByteRange` is what a request asks
for; `bytesToSkip` says whether a forward-only connection can serve a position, and `rangeStop`
how far a new request should reach.

Main statements:

* `bytesToSkip_eq_some_iff` : a connection serves the positions from its cursor on that lie before
  its end and not too far ahead.
* `rangeStop_le` : no request reaches past the end of the object.
-/

namespace RemoteFile

/-- The first position that cannot be written in 64 bits. -/
abbrev positionLimit : Nat := wordLimit

/-- The bytes from `start` on, up to but not including `stop` if it is given. -/
structure ByteRange where
  /-- The first byte. -/
  start : Nat
  /-- The byte after the last one; none runs to the end of the object. -/
  stop : Option Nat
deriving DecidableEq, Repr

namespace ByteRange

/-- Everything from `start` on. -/
def startingAt (start : Nat) : ByteRange := ⟨start, none⟩

/-- From `start` up to but not including `stop`. -/
def between (start stop : Nat) : ByteRange := ⟨start, some stop⟩

/-- The end that a request names: one that is not above the start counts as none. -/
def namedStop (r : ByteRange) : Option Nat := r.stop.filter (r.start < ·)

/-- The value of the request header. -/
def header (r : ByteRange) : String :=
  match r.namedStop with
  | some stop => "bytes=" ++ toString r.start ++ "-" ++ toString (stop - 1)
  | none => "bytes=" ++ toString r.start ++ "-"

end ByteRange

/-- How many bytes a connection at `cursor` that ends at `stop` has to drop to get to `offset`;
none if it cannot serve that position: it lies behind the cursor, at or past the end, or more than
`maxSkip` ahead. -/
def bytesToSkip (cursor stop offset maxSkip : Nat) : Option Nat :=
  if offset < cursor || stop ≤ offset then none
  else if offset - cursor ≤ maxSkip then some (offset - cursor) else none

/-- The end of the range to request for a read at `offset`: the end of the object, unless requests
are limited to `maxLen` bytes. -/
def rangeStop (offset size : Nat) (maxLen : Option Nat) : Nat :=
  match maxLen with
  | some len => min (min (offset + len) (positionLimit - 1)) size
  | none => size

theorem bytesToSkip_eq_some_iff {cursor stop offset maxSkip n : Nat} :
    bytesToSkip cursor stop offset maxSkip = some n ↔
      cursor ≤ offset ∧ offset < stop ∧ offset - cursor ≤ maxSkip ∧ n = offset - cursor := by
  simp only [bytesToSkip, Bool.or_eq_true, decide_eq_true_eq]
  split
  · simp only [reduceCtorEq, false_iff]
    omega
  · split
    · simp only [Option.some.injEq]
      omega
    · simp only [reduceCtorEq, false_iff]
      omega

theorem rangeStop_le (offset size : Nat) (maxLen : Option Nat) :
    rangeStop offset size maxLen ≤ size := by
  cases maxLen with
  | none => exact Nat.le_refl _
  | some len => exact Nat.min_le_right _ _

end RemoteFile
