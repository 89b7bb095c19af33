import Mathlib.Data.List.Induction
import Mathlib.Data.List.TakeWhile
import Mathlib.Data.Nat.Digits.Defs
import RemoteFile.Proofs.Range.Header

/-!
# The grammar of content ranges

Which texts are read as a content range, and as which one. A `Spelling` is such a text taken to
pieces: the unit, the span or a star, a slash, the complete length or a star, and blanks wherever
they may stand. Each piece carries what makes it well-formed, so that every spelling is one of a
content range that says something, with the ends of its span in order and all numbers below
`2 ^ 64`.

A text is read as a content range if and only if it has a spelling of it, and it has at most one
spelling at all. Every other text is malformed.

Main statements:

* `Text.numeral?_eq_some_iff` : which texts are read as a number.
* `ContentRange.parse?_eq_some_iff` : which texts are read as a content range.
* `ContentRange.Spelling.text_injective` : a text has at most one spelling.
* `ContentRange.read_by_spelling` : both, with the failure for all other texts and with what is
  written by the library itself.
-/

namespace RemoteFile

namespace Text

/-! ### Blanks around a text -/

/-- A run of blanks, which may be empty. -/
abbrev Blanks := { s : List Char // ∀ c ∈ s, isBlank c = true }

namespace Blanks

/-- No blanks. -/
def none : Blanks := ⟨[], nofun⟩

/-- One run after the other. -/
def append (a b : Blanks) : Blanks :=
  ⟨a.1 ++ b.1, fun c hc => (List.mem_append.1 hc).elim (a.2 c) (b.2 c)⟩

theorem not_mem (a : Blanks) {c : Char} (h : isBlank c = false) : c ∉ a.1 := fun hc =>
  absurd (a.2 c hc) (by simp [h])

end Blanks

/-- Neither the first nor the last character is a blank. -/
structure Solid (s : List Char) : Prop where
  /-- There is a first one. -/
  first : ∃ c r, s = c :: r ∧ isBlank c = false
  /-- There is a last one. -/
  last : ∃ r c, s = r ++ [c] ∧ isBlank c = false

variable {s s' : List Char} {n : Nat}

theorem Solid.singleton {c : Char} (h : isBlank c = false) : Solid [c] :=
  ⟨⟨c, [], rfl, h⟩, ⟨[], c, rfl, h⟩⟩

theorem Solid.around {t : List Char} (hs : Solid s) (ht : Solid t) (m : List Char) :
    Solid (s ++ m ++ t) := by
  obtain ⟨c, r, rfl, hc⟩ := hs.first
  obtain ⟨r', c', rfl, hc'⟩ := ht.last
  exact ⟨⟨c, r ++ m ++ (r' ++ [c']), by simp, hc⟩, ⟨c :: r ++ m ++ r', c', by simp, hc'⟩⟩

theorem Solid.of_forall (hne : s ≠ []) (h : ∀ c ∈ s, isBlank c = false) : Solid s := by
  refine ⟨?_, ?_⟩
  · obtain ⟨c, r, rfl⟩ := List.exists_cons_of_ne_nil hne
    exact ⟨c, r, rfl, h c List.mem_cons_self⟩
  · exact ⟨s.dropLast, s.getLast hne, (List.dropLast_append_getLast hne).symm,
      h _ (List.getLast_mem hne)⟩

theorem trimStart_append (a : Blanks) (s : List Char) : trimStart (a.1 ++ s) = trimStart s :=
  List.dropWhile_append_of_pos a.2

theorem trimEnd_append (s : List Char) (b : Blanks) : trimEnd (s ++ b.1) = trimEnd s := by
  rw [trimEnd, List.reverse_append, List.dropWhile_append_of_pos fun c hc => b.2 c
    (List.mem_reverse.1 hc), trimEnd]

theorem trimStart_around (a : Blanks) {c : Char} {r : List Char} (h : isBlank c = false) :
    trimStart (a.1 ++ c :: r) = c :: r := by
  rw [trimStart_append, trimStart, List.dropWhile_cons_of_neg (by simp [h])]

theorem trim_around (a b : Blanks) (hs : Solid s) : trim (a.1 ++ s ++ b.1) = s := by
  have hmid : trimStart (a.1 ++ s ++ b.1) = s ++ b.1 := by
    obtain ⟨c, r, rfl, hc⟩ := hs.first
    rw [List.append_assoc, List.cons_append, trimStart_around a hc]
  rw [trim, hmid, trimEnd_append]
  exact trimEnd_eq_self fun c hc => by
    obtain ⟨r, d, rfl, hd⟩ := hs.last
    rw [List.getLast?_concat] at hc
    cases hc
    exact hd

theorem exists_of_trimStart (s : List Char) : ∃ a : Blanks, s = a.1 ++ trimStart s :=
  ⟨⟨s.takeWhile isBlank, fun _ => List.mem_takeWhile_imp⟩, List.takeWhile_append_dropWhile.symm⟩

theorem exists_of_trim (s : List Char) : ∃ a b : Blanks, s = a.1 ++ trim s ++ b.1 := by
  obtain ⟨a, ha⟩ := exists_of_trimStart s
  obtain ⟨b, hb⟩ := exists_of_trimStart (trimStart s).reverse
  refine ⟨a, ⟨b.1.reverse, fun c hc => b.2 c (List.mem_reverse.1 hc)⟩, ?_⟩
  have hend : trimStart s = trim s ++ b.1.reverse := by
    have hreverse := congrArg List.reverse hb
    rwa [List.reverse_reverse, List.reverse_append] at hreverse
  rw [List.append_assoc, ← hend, ← ha]

/-- A solid text and the blanks around it can be told from the whole. -/
theorem eq_of_around {a b a' b' : Blanks} (hs : Solid s) (hs' : Solid s')
    (h : a.1 ++ s ++ b.1 = a'.1 ++ s' ++ b'.1) : a = a' ∧ s = s' ∧ b = b' := by
  have hmid : s = s' := by rw [← trim_around a b hs, h, trim_around a' b' hs']
  have hlead : ∀ (a b : Blanks), (a.1 ++ s ++ b.1).takeWhile isBlank = a.1 := by
    intro a b
    obtain ⟨c, r, rfl, hc⟩ := hs.first
    rw [List.append_assoc, List.takeWhile_append_of_pos a.2, List.cons_append,
      List.takeWhile_cons_of_neg (by simp [hc]), List.append_nil]
  subst hmid
  have ha : a.1 = a'.1 := by rw [← hlead a b, h, hlead a' b']
  refine ⟨Subtype.ext ha, rfl, Subtype.ext ?_⟩
  rw [ha] at h
  exact List.append_cancel_left h

theorem eq_of_before {b b' : Blanks} (hs : Solid s) (hs' : Solid s')
    (h : s ++ b.1 = s' ++ b'.1) : s = s' ∧ b = b' := by
  have haround : Blanks.none.1 ++ s ++ b.1 = Blanks.none.1 ++ s' ++ b'.1 := h
  exact (eq_of_around hs hs' haround).2

theorem eq_of_after {a a' : Blanks} (hs : Solid s) (hs' : Solid s')
    (h : a.1 ++ s = a'.1 ++ s') : a = a' ∧ s = s' := by
  have haround : a.1 ++ s ++ Blanks.none.1 = a'.1 ++ s' ++ Blanks.none.1 := by rw [h]
  obtain ⟨hlead, hmid, -⟩ := eq_of_around hs hs' haround
  exact ⟨hlead, hmid⟩

/-- The part before a separator and the one after it can be told from the whole. -/
theorem eq_of_separated {sep : Char} {a a' b b' : List Char} (ha : sep ∉ a) (ha' : sep ∉ a')
    (h : a ++ sep :: b = a' ++ sep :: b') : a = a' ∧ b = b' := by
  have hsplit := splitOnce_append b ha
  rw [h, splitOnce_append b' ha'] at hsplit
  cases hsplit
  exact ⟨rfl, rfl⟩

/-! ### Numbers -/

/-- The number that digits stand for, each with the weight of its place. -/
def placeValue (digits : List Char) : Nat := Nat.ofDigits 10 (digits.reverse.map digitValue)

/-- A number as it is written. -/
structure Numeral where
  /-- There is a plus sign. -/
  plus : Bool
  /-- The digits. -/
  digits : List Char
  /-- There are some. -/
  ne_nil : digits ≠ []
  /-- There is nothing else. -/
  isDigit : ∀ c ∈ digits, c.isDigit = true
  /-- The number fits into 64 bits. -/
  fits : placeValue digits < wordLimit

/-- Reading digit by digit gives each digit the weight of its place. -/
theorem digitsValue_eq_placeValue (s : List Char) : digitsValue s = placeValue s := by
  induction s using List.reverseRecOn with
  | nil => rfl
  | append_singleton s c ih =>
    have hstep : digitsValue (s ++ [c]) = 10 * digitsValue s + digitValue c := by
      simp [digitsValue]
    rw [hstep, ih, placeValue, placeValue, List.reverse_concat, List.map_cons, Nat.ofDigits_cons]
    exact Nat.add_comm _ _

namespace Numeral

/-- The number. -/
def value (x : Numeral) : Nat := placeValue x.digits

/-- The text. -/
def text (x : Numeral) : List Char := if x.plus then '+' :: x.digits else x.digits

theorem mem_text {x : Numeral} {c : Char} (h : c ∈ x.text) : c = '+' ∨ c.isDigit = true := by
  unfold text at h
  split at h
  · exact (List.mem_cons.1 h).imp_right (x.isDigit c)
  · exact .inr (x.isDigit c h)

theorem not_mem_text (x : Numeral) {c : Char} (hplus : c ≠ '+') (hdigit : c.isDigit = false) :
    c ∉ x.text := fun h => by
  rcases mem_text h with rfl | h
  · exact hplus rfl
  · simp [h] at hdigit

theorem solid (x : Numeral) : Solid x.text := by
  refine .of_forall ?_ fun c hc => ?_
  · unfold text
    split
    · exact List.cons_ne_nil _ _
    · exact x.ne_nil
  · rcases mem_text hc with rfl | hc
    · rfl
    · exact isBlank_of_isDigit hc

theorem dropPlus_of_isDigit {s : List Char} (h : ∀ c ∈ s, c.isDigit = true) : dropPlus s = s := by
  unfold dropPlus
  split
  · exact absurd (h '+' List.mem_cons_self) (by decide)
  · rfl

theorem dropPlus_text (x : Numeral) : dropPlus x.text = x.digits := by
  unfold text
  split
  · rfl
  · exact dropPlus_of_isDigit x.isDigit

/-- A number can be written in one way as a given text. -/
theorem text_injective : Function.Injective text := by
  intro x y h
  have hdigits : x.digits = y.digits := by rw [← dropPlus_text, h, dropPlus_text]
  have hplus : x.plus = y.plus := by
    have hlength := congrArg List.length h
    unfold text at hlength
    rw [hdigits] at hlength
    cases hx : x.plus <;> cases hy : y.plus <;> simp [hx, hy] at hlength ⊢
  cases x
  cases y
  cases hdigits
  cases hplus
  rfl

end Numeral

theorem exists_dropPlus (s : List Char) :
    s = dropPlus s ∨ s = '+' :: dropPlus s := by
  unfold dropPlus
  split
  · exact .inr rfl
  · exact .inl rfl

/-- Which texts are read as a number. -/
theorem numeral?_eq_some_iff : numeral? s = some n ↔ ∃ x : Numeral, x.text = s ∧ x.value = n := by
  constructor
  · intro h
    simp only [numeral?, digitsValue_eq_placeValue] at h
    split at h
    · cases h
    · rename_i hdigits
      split at h
      · rename_i hfits
        cases h
        simp only [Bool.or_eq_true, List.isEmpty_iff, Bool.not_eq_true', List.all_eq_false,
          not_or, not_exists, not_and, Bool.not_eq_true, Bool.not_eq_false] at hdigits
        obtain ⟨hne, hall⟩ := hdigits
        rcases exists_dropPlus s with hs | hs
        · exact ⟨⟨false, dropPlus s, hne, hall, hfits⟩, hs.symm, rfl⟩
        · exact ⟨⟨true, dropPlus s, hne, hall, hfits⟩, hs.symm, rfl⟩
      · cases h
  · rintro ⟨x, rfl, rfl⟩
    have hall : x.digits.all Char.isDigit = true := List.all_eq_true.2 x.isDigit
    simp [numeral?, x.dropPlus_text, x.ne_nil, hall, digitsValue_eq_placeValue, Numeral.value,
      x.fits]

theorem numeral?_trim_eq_some_iff :
    numeral? (trim s) = some n ↔
      ∃ (a : Blanks) (x : Numeral) (b : Blanks), a.1 ++ x.text ++ b.1 = s ∧ x.value = n := by
  rw [numeral?_eq_some_iff]
  constructor
  · rintro ⟨x, hx, hvalue⟩
    obtain ⟨a, b, hs⟩ := exists_of_trim s
    exact ⟨a, x, b, by rw [hx, ← hs], hvalue⟩
  · rintro ⟨a, x, b, rfl, hvalue⟩
    exact ⟨x, (trim_around a b x.solid).symm, hvalue⟩

end Text

namespace ContentRange

open Text

variable {s : List Char} {span : Option (Nat × Nat)} {total : Option Nat} {c : ContentRange}

/-! ### The span -/

/-- The part before the slash as it is written, without the blanks around it. -/
inductive SpanForm where
  /-- The range could not be satisfied. -/
  | star
  /-- The first and the last byte, in order, with a hyphen and blanks between. -/
  | ends (first : Numeral) (before after : Blanks) (last : Numeral)
    (ordered : first.value ≤ last.value)

namespace SpanForm

/-- The span. -/
def value : SpanForm → Option (Nat × Nat)
  | star => none
  | ends first _ _ last _ => some (first.value, last.value)

/-- The text. -/
def text : SpanForm → List Char
  | star => ['*']
  | ends first before after last _ => first.text ++ before.1 ++ '-' :: (after.1 ++ last.text)

theorem solid (x : SpanForm) : Solid x.text := by
  cases x with
  | star => exact .singleton rfl
  | ends first before after last ordered =>
    have h := first.solid.around last.solid (before.1 ++ '-' :: after.1)
    simpa [text] using h

theorem not_mem_first (first : Numeral) (before : Blanks) : '-' ∉ first.text ++ before.1 := by
  rw [List.mem_append, not_or]
  exact ⟨first.not_mem_text (by decide) rfl, before.not_mem rfl⟩

theorem not_mem_text (x : SpanForm) : '/' ∉ x.text := by
  cases x with
  | star => exact by decide
  | ends first before after last ordered =>
    have hfirst : '/' ∉ first.text := first.not_mem_text (by decide) rfl
    have hlast : '/' ∉ last.text := last.not_mem_text (by decide) rfl
    have hbefore : '/' ∉ before.1 := before.not_mem rfl
    have hafter : '/' ∉ after.1 := after.not_mem rfl
    simp [text, hfirst, hlast, hbefore, hafter]

theorem text_ne_star {first last : Numeral} {before after : Blanks}
    {ordered : first.value ≤ last.value} :
    (ends first before after last ordered).text ≠ ['*'] := fun h =>
  absurd (h ▸ List.mem_append_right _ List.mem_cons_self : '-' ∈ ['*']) (by decide)

/-- A span can be written in one way as a given text. -/
theorem text_injective : Function.Injective text := by
  intro x y h
  cases x with
  | star =>
    cases y with
    | star => rfl
    | ends => exact absurd h.symm text_ne_star
  | ends first before after last ordered =>
    cases y with
    | star => exact absurd h text_ne_star
    | ends first' before' after' last' ordered' =>
      obtain ⟨hfirst, hlast⟩ :=
        eq_of_separated (not_mem_first first before) (not_mem_first first' before') h
      obtain ⟨hf, rfl⟩ := eq_of_before first.solid first'.solid hfirst
      obtain ⟨rfl, hl⟩ := eq_of_after last.solid last'.solid hlast
      cases Numeral.text_injective hf
      cases Numeral.text_injective hl
      rfl

end SpanForm

theorem parseSpan_eq_some_iff :
    parseSpan s = some span ↔
      ∃ (a : Blanks) (x : SpanForm) (b : Blanks), a.1 ++ x.text ++ b.1 = s ∧ x.value = span := by
  constructor
  · intro h
    obtain ⟨a, b, hs⟩ := exists_of_trim s
    simp only [parseSpan] at h
    split at h
    · rename_i hstar
      cases h
      exact ⟨a, .star, b, by rw [hs, hstar]; rfl, rfl⟩
    · simp only [Option.bind_eq_bind, Option.bind_eq_some_iff] at h
      obtain ⟨⟨p, q⟩, hsplit, m, hm, n, hn, h⟩ := h
      split at h
      · cases h
      · rename_i hle
        cases h
        -- the blanks before the first number and behind the last one are around the span
        obtain ⟨a₁, x, b₁, rfl, rfl⟩ := numeral?_trim_eq_some_iff.1 hm
        obtain ⟨a₂, y, b₂, rfl, rfl⟩ := numeral?_trim_eq_some_iff.1 hn
        refine ⟨a.append a₁, .ends x b₁ a₂ y (Nat.le_of_not_lt hle), b₂.append b, ?_, rfl⟩
        rw [hs, (splitOnce_eq_some hsplit).1]
        simp [Blanks.append, SpanForm.text]
  · rintro ⟨a, x, b, rfl, rfl⟩
    rw [parseSpan, trim_around a b x.solid]
    cases x with
    | star => rfl
    | ends first before after last ordered =>
      have hfirst : numeral? (trim (first.text ++ before.1)) = some first.value :=
        numeral?_trim_eq_some_iff.2 ⟨.none, first, before, rfl, rfl⟩
      have hlast : numeral? (trim (after.1 ++ last.text)) = some last.value :=
        numeral?_trim_eq_some_iff.2 ⟨after, last, .none, List.append_nil _, rfl⟩
      rw [if_neg SpanForm.text_ne_star, SpanForm.text,
        splitOnce_append _ (SpanForm.not_mem_first first before)]
      simp [hfirst, hlast, Nat.not_lt.2 ordered, SpanForm.value]

/-! ### The complete length -/

/-- The part after the slash as it is written, without the blanks around it. -/
inductive TotalForm where
  /-- The server does not know it. -/
  | star
  /-- The number of bytes. -/
  | length (total : Numeral)

namespace TotalForm

/-- The complete length. -/
def value : TotalForm → Option Nat
  | star => none
  | length total => some total.value

/-- The text. -/
def text : TotalForm → List Char
  | star => ['*']
  | length total => total.text

theorem solid (x : TotalForm) : Solid x.text := by
  cases x with
  | star => exact .singleton rfl
  | length total => exact total.solid

theorem text_ne_star (n : Numeral) : (length n).text ≠ ['*'] := by
  intro h
  have hmem : '*' ∈ n.text := by
    rw [show n.text = ['*'] from h]
    exact List.mem_cons_self
  exact n.not_mem_text (by decide) rfl hmem

/-- A complete length can be written in one way as a given text. -/
theorem text_injective : Function.Injective text := by
  intro x y h
  cases x with
  | star =>
    cases y with
    | star => rfl
    | length n => exact absurd h.symm (text_ne_star n)
  | length m =>
    cases y with
    | star => exact absurd h (text_ne_star m)
    | length n => exact congrArg length (Numeral.text_injective h)

end TotalForm

theorem parseTotal_eq_some_iff :
    parseTotal s = some total ↔
      ∃ (a : Blanks) (x : TotalForm) (b : Blanks), a.1 ++ x.text ++ b.1 = s ∧ x.value = total := by
  constructor
  · intro h
    simp only [parseTotal] at h
    split at h
    · rename_i hstar
      cases h
      obtain ⟨a, b, hs⟩ := exists_of_trim s
      exact ⟨a, .star, b, by rw [hs, hstar]; rfl, rfl⟩
    · obtain ⟨n, hn, rfl⟩ := Option.map_eq_some_iff.1 h
      obtain ⟨a, x, b, hs, rfl⟩ := numeral?_trim_eq_some_iff.1 hn
      exact ⟨a, .length x, b, hs, rfl⟩
  · rintro ⟨a, x, b, rfl, rfl⟩
    rw [parseTotal, trim_around a b x.solid]
    cases x with
    | star => rfl
    | length n =>
      have hn : numeral? n.text = some n.value := numeral?_eq_some_iff.2 ⟨n, rfl, rfl⟩
      rw [if_neg (TotalForm.text_ne_star n), TotalForm.text, hn]
      rfl

/-! ### The whole text -/

/-- A content range as it is written. -/
structure Spelling where
  /-- The blanks before the unit. -/
  lead : Blanks
  /-- The blanks behind the unit. -/
  gap : Blanks
  /-- The span. -/
  span : SpanForm
  /-- The blanks before the slash. -/
  before : Blanks
  /-- The blanks behind the slash. -/
  after : Blanks
  /-- The complete length. -/
  total : TotalForm
  /-- The blanks at the end. -/
  trail : Blanks
  /-- One of the parts is given. -/
  given : span.value ≠ none ∨ total.value ≠ none

namespace Spelling

/-- What it says. -/
def content (x : Spelling) : ContentRange := ⟨x.span.value, x.total.value⟩

/-- The part between the unit and the slash. -/
def front (x : Spelling) : List Char := x.span.text ++ x.before.1

/-- The text from the span on, without the blanks at the end. -/
def tail (x : Spelling) : List Char := x.front ++ '/' :: (x.after.1 ++ x.total.text)

/-- The text without the blanks at its ends. -/
def core (x : Spelling) : List Char := "bytes".toList ++ x.gap.1 ++ x.tail

/-- The text. -/
def text (x : Spelling) : List Char := x.lead.1 ++ x.core ++ x.trail.1

theorem not_mem_front (x : Spelling) : '/' ∉ x.front := by
  rw [front, List.mem_append, not_or]
  exact ⟨x.span.not_mem_text, x.before.not_mem rfl⟩

theorem solid_tail (x : Spelling) : Solid x.tail := by
  have h := x.span.solid.around x.total.solid (x.before.1 ++ '/' :: x.after.1)
  simpa [tail, front] using h

theorem solid_core (x : Spelling) : Solid x.core := by
  have hunit : Solid "bytes".toList :=
    ⟨⟨'b', "ytes".toList, rfl, rfl⟩, ⟨"byte".toList, 's', rfl, rfl⟩⟩
  exact hunit.around x.solid_tail x.gap.1

/-- **A text has at most one spelling.** -/
theorem text_injective : Function.Injective text := by
  intro x y h
  obtain ⟨hlead, hcore, htrail⟩ := eq_of_around x.solid_core y.solid_core h
  have hrest : x.gap.1 ++ x.tail = y.gap.1 ++ y.tail := by
    rw [core, core, List.append_assoc, List.append_assoc] at hcore
    exact List.append_cancel_left hcore
  obtain ⟨hgap, htail⟩ := eq_of_after x.solid_tail y.solid_tail hrest
  obtain ⟨hfront, hback⟩ := eq_of_separated x.not_mem_front y.not_mem_front htail
  obtain ⟨hspan, hbefore⟩ := eq_of_before x.span.solid y.span.solid hfront
  obtain ⟨hafter, htotal⟩ := eq_of_after x.total.solid y.total.solid hback
  cases x
  cases y
  cases hlead
  cases hgap
  cases SpanForm.text_injective hspan
  cases hbefore
  cases hafter
  cases TotalForm.text_injective htotal
  cases htrail
  rfl

end Spelling

theorem afterUnit_eq_some {r : List Char} (h : afterUnit s = some r) : s = "bytes".toList ++ r := by
  unfold afterUnit at h
  split at h
  · cases h
    rfl
  · cases h

theorem exists_spelling (h : parse? s = some c) : ∃ x : Spelling, x.text = s ∧ x.content = c := by
  simp only [parse?, Option.bind_eq_bind, Option.bind_eq_some_iff] at h
  obtain ⟨rest, hunit, ⟨p, q⟩, hsplit, total, htotal, span, hspan, h⟩ := h
  split at h
  · cases h
  · rename_i hgiven
    cases h
    -- what is dropped at each stage are blanks, which stand together with those of the parts
    obtain ⟨lead, trail, hs⟩ := exists_of_trim s
    obtain ⟨gap, hgap⟩ := exists_of_trimStart rest
    obtain ⟨a₁, x, b₁, rfl, rfl⟩ := parseSpan_eq_some_iff.1 hspan
    obtain ⟨a₂, y, b₂, rfl, rfl⟩ := parseTotal_eq_some_iff.1 htotal
    have hparts : x.value ≠ none ∨ y.value ≠ none := by
      rw [← not_and_or]
      simpa [Option.isNone_iff_eq_none] using hgiven
    refine ⟨⟨lead, gap.append a₁, x, b₁, a₂, y, b₂.append trail, hparts⟩, ?_, rfl⟩
    rw [hs, afterUnit_eq_some hunit, hgap, (splitOnce_eq_some hsplit).1]
    simp [Spelling.text, Spelling.core, Spelling.tail, Spelling.front, Blanks.append]

theorem parse?_spelling (x : Spelling) : parse? x.text = some x.content := by
  have hunit : afterUnit x.core = some (x.gap.1 ++ x.tail) := rfl
  have hstart : trimStart (x.gap.1 ++ x.tail) = x.tail := by
    obtain ⟨d, r, hd, hblank⟩ := x.solid_tail.first
    rw [hd, trimStart_around x.gap hblank]
  have hspan : parseSpan x.front = some x.span.value :=
    parseSpan_eq_some_iff.2 ⟨.none, x.span, x.before, rfl, rfl⟩
  have htotal : parseTotal (x.after.1 ++ x.total.text) = some x.total.value :=
    parseTotal_eq_some_iff.2 ⟨x.after, x.total, .none, List.append_nil _, rfl⟩
  have hsplit : splitOnce '/' x.tail = some (x.front, x.after.1 ++ x.total.text) :=
    splitOnce_append _ x.not_mem_front
  have hgiven : x.span.value = none → x.total.value ≠ none := fun h =>
    x.given.resolve_left fun h' => h' h
  rw [parse?, Spelling.text, trim_around x.lead x.trail x.solid_core]
  simpa [hunit, hstart, hsplit, hspan, htotal, Spelling.content] using hgiven

/-- **Which texts are read as a content range.** -/
theorem parse?_eq_some_iff :
    parse? s = some c ↔ ∃ x : Spelling, x.text = s ∧ x.content = c := by
  refine ⟨exists_spelling, ?_⟩
  rintro ⟨x, rfl, rfl⟩
  exact parse?_spelling x

/-- **A text is read by its spelling.**  It is read as a content range if and only if it has a
spelling of it, and it has at most one spelling. Every other text is malformed. What the library
writes itself, for any span and complete length that fit into 64 bits and are not both left open, is
read back. -/
theorem read_by_spelling (value : String) :
    (∀ c, parse value = .ok c ↔ ∃ x : Spelling, x.text = value.toList ∧ x.content = c) ∧
      Function.Injective Spelling.text ∧
      (∀ f, parse value = .error f ↔ (∀ x : Spelling, x.text ≠ value.toList) ∧
        f = .malformed ("bad Content-Range: " ++ quoted value)) ∧
      ∀ c : ContentRange, c.Valid → c.Fits → parse c.text = .ok c := by
  refine ⟨fun c => parse_eq_ok_iff.trans parse?_eq_some_iff, Spelling.text_injective, fun f => ?_,
    fun c hvalid hfits => parse_eq_ok_iff.2 (parse?_text hvalid hfits)⟩
  rw [parse_eq_error_iff, Option.eq_none_iff_forall_ne_some]
  refine and_congr_left fun _ => ⟨fun h x hx => ?_, fun h c hc => ?_⟩
  · exact h x.content (parse?_eq_some_iff.2 ⟨x, hx, rfl⟩)
  · obtain ⟨x, hx, -⟩ := parse?_eq_some_iff.1 hc
    exact h x hx

/-- Blanks and a plus sign do no harm, two signs do, and what is written is read back. -/
theorem read_by_spelling_of_three :
    (∃ x : Spelling, x.text = " bytes+1 -\t02/ * ".toList ∧ x.content = ⟨some (1, 2), none⟩) ∧
      (∀ x : Spelling, x.text ≠ "bytes ++1-2/*".toList) ∧
      parse (text ⟨some (0, 18446744073709551615), none⟩) =
        .ok ⟨some (0, 18446744073709551615), none⟩ := by
  refine ⟨((read_by_spelling _).1 _).1 rfl, (((read_by_spelling _).2.2.1 _).1 rfl).1,
    (read_by_spelling "").2.2.2 _ ⟨?_, .inl nofun⟩ ⟨?_, nofun⟩⟩
  · rintro first last h
    cases h
    decide
  · rintro first last h
    cases h
    decide

end ContentRange

end RemoteFile
