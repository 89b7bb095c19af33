import RemoteFile.Words

/-!
# Numerals

Whole numbers as they stand in header text: an optional plus sign and one or more ASCII digits,
below `2 ^ 64`; and text split at the first occurrence of a character.

Main statements:

* `splitOnce_eq_some` : a split gives back the text, and the first part lacks the separator.
* `numeral?_lt` : a numeral that is read is below `2 ^ 64`.
-/

namespace RemoteFile

namespace Text

/-- The value of a digit. -/
def digitValue (c : Char) : Nat := c.toNat - '0'.toNat

/-- The number that a run of digits stands for. -/
def digitsValue (s : List Char) : Nat := s.foldl (fun n c => 10 * n + digitValue c) 0

/-- Without one plus sign at the start. -/
def dropPlus : List Char → List Char
  | '+' :: r => r
  | s => s

/-- Reads a numeral. -/
def numeral? (s : List Char) : Option Nat :=
  let digits := dropPlus s
  if digits.isEmpty || !digits.all Char.isDigit then none
  else if digitsValue digits < wordLimit then some (digitsValue digits) else none

/-- The parts before and after the first `sep`. -/
def splitOnce (sep : Char) : List Char → Option (List Char × List Char)
  | [] => none
  | c :: r => if c = sep then some ([], r) else (splitOnce sep r).map fun p => (c :: p.1, p.2)

theorem splitOnce_eq_some {sep : Char} {s a b : List Char} (h : splitOnce sep s = some (a, b)) :
    s = a ++ sep :: b ∧ sep ∉ a := by
  induction s generalizing a b with
  | nil => simp [splitOnce] at h
  | cons c r ih =>
    by_cases hc : c = sep
    · simp only [splitOnce, hc, if_true, Option.some.injEq, Prod.mk.injEq] at h
      obtain ⟨rfl, rfl⟩ := h
      simp [hc]
    · simp only [splitOnce, hc, if_false, Option.map_eq_some_iff, Prod.mk.injEq] at h
      obtain ⟨⟨a', b'⟩, h', rfl, rfl⟩ := h
      obtain ⟨e, hn⟩ := ih h'
      exact ⟨by simp [e], by simp [hn, Ne.symm hc]⟩

theorem numeral?_lt {s : List Char} {n : Nat} (h : numeral? s = some n) : n < wordLimit := by
  simp only [numeral?] at h
  split at h
  · simp at h
  · split at h
    · rename_i hlt
      simp only [Option.some.injEq] at h
      omega
    · simp at h

end Text

end RemoteFile
