import RemoteFile.Failure
import RemoteFile.Range
import RemoteFile.Text.Blank
import RemoteFile.Text.Numeral
import RemoteFile.Text.Quoted

/-!
# Content ranges

What a response says that it holds: the span of its bytes and the complete length of the object,
either of which may be left open (`bytes 0-499/1234`, `bytes */1234`, `bytes 0-499/*`).

Main statement:

* `ContentRange.Valid.of_parse` : a span that is read has its ends in order, and not both parts
  are left open.
-/

namespace RemoteFile

open Text

/-- The bytes that a response holds. -/
structure ContentRange where
  /-- The first and the last byte; none if the range could not be satisfied. -/
  span : Option (Nat × Nat)
  /-- The complete length of the object; none if the server does not know it. -/
  total : Option Nat
deriving DecidableEq, Repr

namespace ContentRange

/-- Says something, and the ends of the span are in order. -/
structure Valid (c : ContentRange) : Prop where
  /-- The ends of the span are in order. -/
  ordered : ∀ first last, c.span = some (first, last) → first ≤ last
  /-- One of the parts is given. -/
  given : c.span ≠ none ∨ c.total ≠ none

/-- Reads the part after the slash. -/
def parseTotal (s : List Char) : Option (Option Nat) :=
  if trim s = ['*'] then some none else (numeral? (trim s)).map some

/-- Reads the part before the slash. -/
def parseSpan (s : List Char) : Option (Option (Nat × Nat)) :=
  if trim s = ['*'] then some none
  else do
    let (first, last) ← splitOnce '-' (trim s)
    let first ← numeral? (trim first)
    let last ← numeral? (trim last)
    if last < first then none else some (some (first, last))

/-- The rest of a text after the unit that ranges are counted in. -/
def afterUnit : List Char → Option (List Char)
  | 'b' :: 'y' :: 't' :: 'e' :: 's' :: r => some r
  | _ => none

/-- Reads the value of a response header. -/
def parse? (s : List Char) : Option ContentRange := do
  let rest ← afterUnit (trim s)
  let (span, total) ← splitOnce '/' (trimStart rest)
  let total ← parseTotal total
  let span ← parseSpan span
  if span.isNone && total.isNone then none else some ⟨span, total⟩

/-- Reads the value of a response header, or says that it is malformed. -/
def parse (value : String) : Except Failure ContentRange :=
  match parse? value.toList with
  | some c => .ok c
  | none => .error (.malformed ("bad Content-Range: " ++ quoted value))

/-- The end that a response has to reach for `r`, as far as it is known: the end that was asked
for, but not past the complete length. -/
def wantedStop (c : ContentRange) (r : ByteRange) : Option Nat :=
  match r.namedStop, c.total with
  | some stop, some total => some (min stop total)
  | some stop, none => some stop
  | none, total => total

/-- Does a partial response with this content range answer `r` exactly? It starts where `r` does
and, as far as the end is known, ends where `r` does. -/
def covers (c : ContentRange) (r : ByteRange) : Bool :=
  match c.span with
  | none => false
  | some (first, last) =>
    first == r.start &&
      match c.wantedStop r with
      | none => true
      | some stop => last + 1 < positionLimit && last + 1 == stop

theorem Valid.of_parse {s : List Char} {c : ContentRange} (h : parse? s = some c) : Valid c := by
  simp only [parse?, Option.bind_eq_bind, Option.bind_eq_some_iff] at h
  obtain ⟨rest, -, ⟨a, b⟩, -, total, ht, span, hs, h⟩ := h
  split at h
  · simp at h
  · rename_i hg
    simp only [Option.some.injEq] at h
    subst h
    refine ⟨?_, ?_⟩
    · rintro first last rfl
      simp only [parseSpan] at hs
      split at hs
      · simp at hs
      · simp only [Option.bind_eq_bind, Option.bind_eq_some_iff] at hs
        obtain ⟨⟨x, y⟩, -, f, -, l, -, hs⟩ := hs
        split at hs
        · simp at hs
        · simp only [Option.some.injEq, Prod.mk.injEq] at hs
          omega
    · simp only [Bool.and_eq_true, Option.isNone_iff_eq_none, not_and] at hg
      by_cases hn : span = none
      · exact .inr (hg hn)
      · exact .inl hn

end ContentRange

end RemoteFile
