import Mathlib.Data.List.Basic
import RemoteFile.Range.Content

/-!
# Content ranges in text

How a content range is written into the header of a response, and that it is read back as it was
written: numbers in decimal digits, and a star for what is left open.

Main statements:

* `Text.numeral?_digits` : a number below `2 ^ 64` is read back from its digits.
* `ContentRange.Fits.of_parse` : what is read fits into 64 bits.
* `ContentRange.parse?_text` : a content range is read back from its text.
-/

namespace RemoteFile

namespace Text

/-! ### Blanks at the ends -/

theorem trimEnd_eq_self {s : List Char} (h : ∀ c ∈ s.getLast?, isBlank c = false) :
    trimEnd s = s := by
  have hreverse : trimStart s.reverse = s.reverse :=
    (trimStart_eq_self_iff _).2 (by rwa [List.head?_reverse])
  rw [trimStart] at hreverse
  rw [trimEnd, hreverse, List.reverse_reverse]

theorem trim_eq_self {s : List Char} (hfirst : ∀ c ∈ s.head?, isBlank c = false)
    (hlast : ∀ c ∈ s.getLast?, isBlank c = false) : trim s = s := by
  rw [trim, (trimStart_eq_self_iff s).2 hfirst, trimEnd_eq_self hlast]

theorem trim_eq_self_of_forall {s : List Char} (h : ∀ c ∈ s, isBlank c = false) : trim s = s :=
  trim_eq_self (fun c hc => h c (List.mem_of_mem_head? hc))
    fun c hc => h c (List.mem_of_getLast? hc)

/-! ### Numbers in digits -/

theorem isBlank_of_isDigit {c : Char} (h : c.isDigit = true) : isBlank c = false := by
  simp only [Char.isDigit, Bool.and_eq_true, decide_eq_true_eq, ge_iff_le, UInt32.le_iff_toNat_le]
    at h
  have hlow : 48 ≤ c.toNat := h.1
  have hhigh : c.toNat ≤ 57 := h.2
  simp only [isBlank, Bool.or_eq_false_iff, Bool.and_eq_false_iff, decide_eq_false_iff_not,
    beq_eq_false_iff_ne]
  omega

/-- The decimal digits of a number. -/
def digits (n : Nat) : List Char := Nat.toDigits 10 n

theorem digits_ne_nil (n : Nat) : digits n ≠ [] := Nat.toDigits_ne_nil

theorem isDigit_of_mem_digits {n : Nat} {c : Char} (h : c ∈ digits n) : c.isDigit = true :=
  Nat.isDigit_of_mem_toDigits (by decide) (by decide) h

theorem digitsValue_digits (n : Nat) : digitsValue (digits n) = n := Nat.ofDigitChars_ten_toDigits

theorem not_mem_digits {n : Nat} {c : Char} (h : c.isDigit = false) : c ∉ digits n := by
  intro hc
  rw [isDigit_of_mem_digits hc] at h
  cases h

theorem isBlank_of_mem_digits {n : Nat} {c : Char} (h : c ∈ digits n) : isBlank c = false :=
  isBlank_of_isDigit (isDigit_of_mem_digits h)

theorem trim_digits (n : Nat) : trim (digits n) = digits n :=
  trim_eq_self_of_forall fun _ => isBlank_of_mem_digits

theorem dropPlus_digits (n : Nat) : dropPlus (digits n) = digits n := by
  unfold dropPlus
  split
  · rename_i r heq
    exact absurd (heq ▸ List.mem_cons_self) (not_mem_digits (n := n) (c := '+') rfl)
  · rfl

/-- A number below `2 ^ 64` is read back from its digits. -/
theorem numeral?_digits {n : Nat} (h : n < wordLimit) : numeral? (digits n) = some n := by
  have hall : (digits n).all Char.isDigit = true :=
    List.all_eq_true.2 fun _ => isDigit_of_mem_digits
  simp [numeral?, dropPlus_digits, digits_ne_nil, hall, digitsValue_digits, h]

theorem splitOnce_append {sep : Char} {a : List Char} (b : List Char) (h : sep ∉ a) :
    splitOnce sep (a ++ sep :: b) = some (a, b) := by
  induction a with
  | nil => simp [splitOnce]
  | cons c a ih =>
    simp only [List.mem_cons, not_or] at h
    simp [splitOnce, Ne.symm h.1, ih h.2]

end Text

namespace ContentRange

open Text

/-- All numbers are below `2 ^ 64`. -/
structure Fits (c : ContentRange) : Prop where
  /-- The last byte, and with it the first one. -/
  last : ∀ first last, c.span = some (first, last) → last < positionLimit
  /-- The complete length. -/
  total : ∀ total, c.total = some total → total < positionLimit

/-- What is read fits into 64 bits. -/
theorem Fits.of_parse {s : List Char} {c : ContentRange} (h : parse? s = some c) : c.Fits := by
  simp only [parse?, Option.bind_eq_bind, Option.bind_eq_some_iff] at h
  obtain ⟨rest, -, ⟨a, b⟩, -, total, htotal, span, hspan, h⟩ := h
  split at h <;> cases h
  refine ⟨?_, ?_⟩
  · rintro first last rfl
    simp only [parseSpan] at hspan
    split at hspan
    · cases hspan
    · simp only [Option.bind_eq_bind, Option.bind_eq_some_iff] at hspan
      obtain ⟨⟨x, y⟩, -, f, -, l, hl, hspan⟩ := hspan
      split at hspan <;> cases hspan
      exact numeral?_lt hl
  · rintro n rfl
    simp only [parseTotal] at htotal
    split at htotal
    · cases htotal
    · obtain ⟨m, hm, hmn⟩ := Option.map_eq_some_iff.1 htotal
      cases hmn
      exact numeral?_lt hm

/-- The span as it is written, before the slash. -/
def spanText : Option (Nat × Nat) → List Char
  | none => ['*']
  | some (first, last) => digits first ++ '-' :: digits last

/-- The complete length as it is written, after the slash. -/
def totalText : Option Nat → List Char
  | none => ['*']
  | some total => digits total

/-- The value of a response header. -/
def text (c : ContentRange) : String :=
  String.ofList ("bytes ".toList ++ spanText c.span ++ '/' :: totalText c.total)

theorem isBlank_of_mem_totalText {total : Option Nat} {c : Char} (h : c ∈ totalText total) :
    isBlank c = false := by
  cases total with
  | none =>
    cases List.mem_singleton.1 h
    rfl
  | some n => exact isBlank_of_mem_digits h

theorem totalText_ne_nil (total : Option Nat) : totalText total ≠ [] := by
  cases total with
  | none => exact List.cons_ne_nil _ _
  | some n => exact digits_ne_nil n

theorem parseTotal_totalText {total : Option Nat} (h : ∀ n, total = some n → n < positionLimit) :
    parseTotal (totalText total) = some total := by
  rw [parseTotal, trim_eq_self_of_forall fun _ => isBlank_of_mem_totalText]
  cases total with
  | none => rfl
  | some n =>
    have hne : digits n ≠ ['*'] := fun heq =>
      not_mem_digits (n := n) (c := '*') rfl (heq ▸ List.mem_cons_self)
    rw [totalText, if_neg hne, numeral?_digits (h n rfl)]
    rfl

theorem mem_spanText {span : Option (Nat × Nat)} {c : Char} (h : c ∈ spanText span) :
    c.isDigit = true ∨ c = '-' ∨ c = '*' := by
  cases span with
  | none => exact .inr (.inr (List.mem_singleton.1 h))
  | some p =>
    rcases List.mem_append.1 h with h | h
    · exact .inl (isDigit_of_mem_digits h)
    · rcases List.mem_cons.1 h with h | h
      · exact .inr (.inl h)
      · exact .inl (isDigit_of_mem_digits h)

theorem isBlank_of_mem_spanText {span : Option (Nat × Nat)} {c : Char} (h : c ∈ spanText span) :
    isBlank c = false := by
  rcases mem_spanText h with h | rfl | rfl
  · exact isBlank_of_isDigit h
  · rfl
  · rfl

theorem parseSpan_spanText {span : Option (Nat × Nat)}
    (hfits : ∀ first last, span = some (first, last) → last < positionLimit)
    (hordered : ∀ first last, span = some (first, last) → first ≤ last) :
    parseSpan (spanText span) = some span := by
  rw [parseSpan, trim_eq_self_of_forall fun _ => isBlank_of_mem_spanText]
  cases span with
  | none => rfl
  | some p =>
    obtain ⟨first, last⟩ := p
    have hlast := hfits first last rfl
    have hle := hordered first last rfl
    have hne : spanText (some (first, last)) ≠ ['*'] := fun heq =>
      absurd (heq ▸ List.mem_append_right _ List.mem_cons_self : '-' ∈ ['*']) (by decide)
    rw [if_neg hne]
    simp [spanText, splitOnce_append _ (not_mem_digits (c := '-') rfl), trim_digits,
      numeral?_digits (Nat.lt_of_le_of_lt hle hlast), numeral?_digits hlast, Nat.not_lt.2 hle]

/-- **A content range is read back from its text.** -/
theorem parse?_text {c : ContentRange} (hvalid : c.Valid) (hfits : c.Fits) :
    parse? c.text.toList = some c := by
  obtain ⟨span, total⟩ := c
  have htext : (text ⟨span, total⟩).toList =
      "bytes ".toList ++ (spanText span ++ '/' :: totalText total) := String.toList_ofList
  have hslash : '/' ∉ spanText span := fun h => by
    rcases mem_spanText h with h | h | h <;> exact absurd h (by decide)
  -- neither end of the text is blank, nor is what follows the unit and one blank
  have htrim : trim (text ⟨span, total⟩).toList = (text ⟨span, total⟩).toList := by
    rw [htext]
    refine trim_eq_self (fun c hc => ?_) fun c hc => ?_
    · cases hc
      rfl
    · rw [← List.append_assoc, List.getLast?_append_cons,
        List.getLast?_cons_of_ne_nil (totalText_ne_nil total)] at hc
      exact isBlank_of_mem_totalText (List.mem_of_getLast? hc)
  have hstart : trimStart (' ' :: (spanText span ++ '/' :: totalText total)) =
      spanText span ++ '/' :: totalText total := by
    change trimStart (spanText span ++ '/' :: totalText total) = _
    refine (trimStart_eq_self_iff _).2 fun c hc => ?_
    rcases List.mem_append.1 (List.mem_of_mem_head? hc) with h | h
    · exact isBlank_of_mem_spanText h
    · rcases List.mem_cons.1 h with rfl | h
      · rfl
      · exact isBlank_of_mem_totalText h
  have hunit : afterUnit (text ⟨span, total⟩).toList =
      some (' ' :: (spanText span ++ '/' :: totalText total)) := by
    rw [htext]
    rfl
  have hgiven : span = none → total ≠ none := fun h => hvalid.given.resolve_left fun h' => h' h
  simpa [parse?, htrim, hunit, hstart, splitOnce_append _ hslash,
    parseTotal_totalText hfits.total, parseSpan_spanText hfits.last hvalid.ordered] using hgiven

theorem parse_eq_ok_iff {value : String} {c : ContentRange} :
    parse value = .ok c ↔ parse? value.toList = some c := by
  rw [parse]
  cases parse? value.toList <;> simp

theorem parse_eq_error_iff {value : String} {f : Failure} :
    parse value = .error f ↔
      parse? value.toList = none ∧ f = .malformed ("bad Content-Range: " ++ quoted value) := by
  rw [parse]
  cases parse? value.toList <;> simp [eq_comm]

end ContentRange

end RemoteFile
