import Mathlib.Data.List.Basic
import RemoteFile.Json.Skip

/-!
# The grammar of JSON values

How numbers, strings, lists and objects are spelled, with any blanks between their tokens and nested
to any depth, and that whatever is spelled like this is passed over as a whole: the reader of values
that are of no interest stops right after it.

The grammar has three kinds of texts, for values, for the items of a list and for the members of an
object, and one rule for each way to build one of them from shorter ones. Strings inside of a value
that is passed over may contain any escapes, since nobody asks for the characters.

Main statements:

* `skipFrom_numberText`, `skipFrom_textBody` : numbers and strings are passed over.
* `skips_of_spells` : so is whatever the grammar derives, inside any open brackets.
* `skip_value` : a value is passed over up to its end.
-/

namespace RemoteFile

namespace Json

/-! ### Tokens -/

/-- Blanks between tokens, if any. -/
def Blanks (s : List Char) : Prop := ∀ c ∈ s, isBlank c = true

/-- One digit or more. -/
structure DigitRun (s : List Char) : Prop where
  /-- There is one. -/
  nonempty : s ≠ []
  /-- There is nothing else. -/
  digits : ∀ c ∈ s, c.isDigit = true

/-- The whole part of a number: a zero, or digits of which the first is no zero. -/
inductive WholeText : List Char → Prop
  /-- A zero stands alone. -/
  | zero : WholeText ['0']
  /-- Digits. -/
  | digits {c : Char} {s : List Char} (hc : c.isDigit = true) (hne : c ≠ '0')
      (hs : ∀ d ∈ s, d.isDigit = true) : WholeText (c :: s)

/-- The fraction of a number, if any. -/
inductive FractionText : List Char → Prop
  /-- There is none. -/
  | absent : FractionText []
  /-- Digits after a point. -/
  | digits {s : List Char} (hs : DigitRun s) : FractionText ('.' :: s)

/-- The exponent of a number, if any. -/
inductive ExponentText : List Char → Prop
  /-- There is none. -/
  | absent : ExponentText []
  /-- Digits after a letter. -/
  | digits {l : Char} {s : List Char} (hl : l = 'e' ∨ l = 'E') (hs : DigitRun s) :
      ExponentText (l :: s)
  /-- Digits after a letter and a sign. -/
  | signed {l sign : Char} {s : List Char} (hl : l = 'e' ∨ l = 'E')
      (hsign : sign = '+' ∨ sign = '-') (hs : DigitRun s) : ExponentText (l :: sign :: s)

/-- A number without its sign. -/
inductive Unsigned : List Char → Prop
  /-- The whole part, the fraction and the exponent. -/
  | parts {w f e : List Char} (hw : WholeText w) (hf : FractionText f) (he : ExponentText e) :
      Unsigned (w ++ (f ++ e))

/-- A number. -/
inductive NumberText : List Char → Prop
  /-- It may have no sign. -/
  | unsigned {s : List Char} (h : Unsigned s) : NumberText s
  /-- It may be negative. -/
  | negative {s : List Char} (h : Unsigned s) : NumberText ('-' :: s)

/-- What stands between the quotes of a string. -/
inductive TextBody : List Char → Prop
  /-- Nothing. -/
  | empty : TextBody []
  /-- A character that stands for itself. -/
  | plain {c : Char} {s : List Char} (hquote : c ≠ '"') (hescape : c ≠ '\\')
      (hcontrol : ¬ c.toNat < 0x20) (hs : TextBody s) : TextBody (c :: s)
  /-- A letter after a backslash. -/
  | escape {c : Char} {s : List Char} (hc : (escape? c).isSome = true) (hs : TextBody s) :
      TextBody ('\\' :: c :: s)
  /-- The four digits of a code. -/
  | code {a b c d : Char} {s : List Char} (ha : (hexDigit? a).isSome = true)
      (hb : (hexDigit? b).isSome = true) (hc : (hexDigit? c).isSome = true)
      (hd : (hexDigit? d).isSome = true) (hs : TextBody s) :
      TextBody ('\\' :: 'u' :: a :: b :: c :: d :: s)

/-! ### Values -/

/-- The kinds of texts that the grammar derives. -/
inductive Kind where
  /-- A value. -/
  | value
  /-- The items of a list, at least one. -/
  | items
  /-- The members of an object, at least one. -/
  | members

/-- The texts that the grammar derives. -/
inductive Spells : Kind → List Char → Prop
  /-- Nothing. -/
  | null : Spells .value ['n', 'u', 'l', 'l']
  /-- Yes. -/
  | yes : Spells .value ['t', 'r', 'u', 'e']
  /-- No. -/
  | no : Spells .value ['f', 'a', 'l', 's', 'e']
  /-- A number. -/
  | number {s : List Char} (h : NumberText s) : Spells .value s
  /-- A string. -/
  | text {s : List Char} (h : TextBody s) : Spells .value ('"' :: (s ++ ['"']))
  /-- A list without items. -/
  | emptyList {b : List Char} (hb : Blanks b) : Spells .value ('[' :: (b ++ [']']))
  /-- A list. -/
  | list {s : List Char} (h : Spells .items s) : Spells .value ('[' :: (s ++ [']']))
  /-- An object without members. -/
  | emptyObject {b : List Char} (hb : Blanks b) : Spells .value ('\x7b' :: (b ++ ['\x7d']))
  /-- An object. -/
  | object {s : List Char} (h : Spells .members s) : Spells .value ('\x7b' :: (s ++ ['\x7d']))
  /-- The last item of a list. -/
  | lastItem {b v b' : List Char} (hb : Blanks b) (hv : Spells .value v) (hb' : Blanks b') :
      Spells .items (b ++ (v ++ b'))
  /-- An item and those after it. -/
  | item {b v b' s : List Char} (hb : Blanks b) (hv : Spells .value v) (hb' : Blanks b')
      (hs : Spells .items s) : Spells .items (b ++ (v ++ (b' ++ ',' :: s)))
  /-- The last member of an object. -/
  | lastMember {b k b₁ b₂ v b' : List Char} (hb : Blanks b) (hk : TextBody k) (hb₁ : Blanks b₁)
      (hb₂ : Blanks b₂) (hv : Spells .value v) (hb' : Blanks b') :
      Spells .members (b ++ '"' :: (k ++ '"' :: (b₁ ++ ':' :: (b₂ ++ (v ++ b')))))
  /-- A member and those after it. -/
  | member {b k b₁ b₂ v b' s : List Char} (hb : Blanks b) (hk : TextBody k) (hb₁ : Blanks b₁)
      (hb₂ : Blanks b₂) (hv : Spells .value v) (hb' : Blanks b') (hs : Spells .members s) :
      Spells .members
        (b ++ '"' :: (k ++ '"' :: (b₁ ++ ':' :: (b₂ ++ (v ++ (b' ++ ',' :: s))))))

/-! ### The automaton -/

variable {p p' : Place} {o o' : List Frame} {c : Char} {b r s : List Char}

/-- The text cannot go on with a number that stands before it. -/
def Closes (r : List Char) : Prop :=
  ∀ c ∈ r.head?, c.isDigit = false ∧ c ≠ '.' ∧ c ≠ 'e' ∧ c ≠ 'E'

theorem isBlank_iff : isBlank c = true ↔ c = ' ' ∨ c = '\n' ∨ c = '\t' ∨ c = '\r' := by
  simp [isBlank, or_assoc]

theorem isBlank_of_isDigit (h : c.isDigit = true) : isBlank c = false := by
  by_contra hblank
  rcases isBlank_iff.1 (by simpa using hblank) with rfl | rfl | rfl | rfl <;> cases h

theorem blanks_nil : Blanks [] := fun _ hc => absurd hc List.not_mem_nil

theorem closes_blank (hc : isBlank c = true) : Closes (c :: r) := by
  rintro c' ⟨⟩
  rcases isBlank_iff.1 hc with rfl | rfl | rfl | rfl <;> decide

theorem Blanks.closes (hb : Blanks b) (hr : Closes r) : Closes (b ++ r) := by
  cases b with
  | nil => exact hr
  | cons c b => exact closes_blank (hb c List.mem_cons_self)

/-- A place that is settled as complete is like one after a value. -/
theorem skipFrom_settled (h : p.settle r.head? = .after) :
    skipFrom p o r = skipFrom .after o r := by
  cases r with
  | nil =>
    have hp : p.settle none = .after := h
    rw [skipFrom.eq_def, skipFrom.eq_def .after]
    simp only [hp]
    rfl
  | cons c s =>
    have hp : p.settle (some c) = .after := h
    rw [skipFrom.eq_def, skipFrom.eq_def .after]
    simp only [hp]
    rfl

theorem skipFrom_cons (hsettle : p.settle (some c) = p) (hp : p ≠ .after ∨ o ≠ [])
    (hstep : skipStep p o c s = .ok (p', o')) : skipFrom p o (c :: s) = skipFrom p' o' s := by
  rw [skipFrom.eq_def]
  simp only [hsettle]
  split
  · simp_all
  · simp only [hstep]

theorem skipFrom_blanks (hb : Blanks b) (hp : p ≠ .after ∨ o ≠ [])
    (hstep : ∀ c s, isBlank c = true → p.settle (some c) = p ∧ skipStep p o c s = .ok (p, o)) :
    skipFrom p o (b ++ r) = skipFrom p o r := by
  induction b with
  | nil => rfl
  | cons c b ih =>
    have hc := hstep c (b ++ r) (hb c List.mem_cons_self)
    rw [List.cons_append, skipFrom_cons hc.1 hp hc.2]
    exact ih fun d hd => hb d (List.mem_cons_of_mem _ hd)

/-! ### Numbers -/

theorem isDigit_ne (h : c.isDigit = true) :
    c ≠ '.' ∧ c ≠ 'e' ∧ c ≠ 'E' ∧ c ≠ '+' ∧ c ≠ '-' := by
  refine ⟨?_, ?_, ?_, ?_, ?_⟩ <;> rintro rfl <;> cases h

theorem next?_digit (h : c.isDigit = true) :
    Digits.whole.next? c = some .whole ∧ Digits.point.next? c = some .fraction ∧
      Digits.fraction.next? c = some .fraction ∧ Digits.letter.next? c = some .exponent ∧
      Digits.exponentSign.next? c = some .exponent ∧ Digits.exponent.next? c = some .exponent := by
  obtain ⟨hpoint, he, hE, hplus, hminus⟩ := isDigit_ne h
  refine ⟨?_, ?_, ?_, ?_, ?_, ?_⟩ <;> unfold Digits.next? <;> split <;> simp_all

theorem settle_number {part part' : Digits} (h : part.next? c = some part') :
    (Place.number part).settle (some c) = .number part := by
  simp [Place.settle, h]

theorem skipFrom_number {part part' : Digits} (h : part.next? c = some part') :
    skipFrom (.number part) o (c :: s) = skipFrom (.number part') o s :=
  skipFrom_cons (settle_number h) (.inl nofun) (by simp only [skipStep, h])

theorem skipFrom_digits {part : Digits} (hpart : ∀ c, c.isDigit = true → part.next? c = some part)
    (hs : ∀ c ∈ s, c.isDigit = true) :
    skipFrom (.number part) o (s ++ r) = skipFrom (.number part) o r := by
  induction s with
  | nil => rfl
  | cons c s ih =>
    rw [List.cons_append, skipFrom_number (hpart c (hs c List.mem_cons_self))]
    exact ih fun d hd => hs d (List.mem_cons_of_mem _ hd)

theorem skipFrom_digitRun {part part' : Digits} (hs : DigitRun s)
    (hpart : ∀ c, c.isDigit = true → part.next? c = some part')
    (hpart' : ∀ c, c.isDigit = true → part'.next? c = some part') :
    skipFrom (.number part) o (s ++ r) = skipFrom (.number part') o r := by
  cases s with
  | nil => exact absurd rfl hs.nonempty
  | cons c s =>
    rw [List.cons_append, skipFrom_number (hpart c (hs.digits c List.mem_cons_self))]
    exact skipFrom_digits hpart' fun d hd => hs.digits d (List.mem_cons_of_mem _ hd)

theorem skipFrom_complete {part : Digits} (hpart : part.complete = true) (hr : Closes r) :
    skipFrom (.number part) o r = skipFrom .after o r := by
  refine skipFrom_settled ?_
  cases r with
  | nil => simp [Place.settle, hpart]
  | cons c s =>
    obtain ⟨hdigit, hpoint, he, hE⟩ := hr c rfl
    have hnext : part.next? c = none := by
      unfold Digits.next?
      split <;> simp_all [Digits.complete]
    simp [Place.settle, hpart, hnext, hdigit]

theorem skipFrom_exponentText {e : List Char} {part : Digits} (he : ExponentText e)
    (hpart : part = .zero ∨ part = .whole ∨ part = .fraction) (hr : Closes r) :
    skipFrom (.number part) o (e ++ r) = skipFrom .after o r := by
  have hletter {l : Char} (hl : l = 'e' ∨ l = 'E') : part.next? l = some .letter := by
    rcases hpart with rfl | rfl | rfl <;> rcases hl with rfl | rfl <;> rfl
  have hcomplete : part.complete = true := by
    rcases hpart with rfl | rfl | rfl <;> rfl
  cases he with
  | absent => exact skipFrom_complete hcomplete hr
  | digits hl hs =>
    rw [List.cons_append, skipFrom_number (hletter hl),
      skipFrom_digitRun hs (fun c hc => (next?_digit hc).2.2.2.1)
        fun c hc => (next?_digit hc).2.2.2.2.2]
    exact skipFrom_complete rfl hr
  | signed hl hsign hs =>
    have hnext : ∀ sign, sign = '+' ∨ sign = '-' →
        Digits.letter.next? sign = some .exponentSign := by
      rintro sign (rfl | rfl) <;> rfl
    rw [List.cons_append, List.cons_append, skipFrom_number (hletter hl),
      skipFrom_number (hnext _ hsign),
      skipFrom_digitRun hs (fun c hc => (next?_digit hc).2.2.2.2.1)
        fun c hc => (next?_digit hc).2.2.2.2.2]
    exact skipFrom_complete rfl hr

theorem skipFrom_fractionText {f e : List Char} {part : Digits} (hf : FractionText f)
    (he : ExponentText e) (hpart : part = .zero ∨ part = .whole) (hr : Closes r) :
    skipFrom (.number part) o (f ++ (e ++ r)) = skipFrom .after o r := by
  cases hf with
  | absent => exact skipFrom_exponentText he (hpart.imp_right .inl) hr
  | digits hs =>
    have hpoint : part.next? '.' = some .point := by
      rcases hpart with rfl | rfl <;> rfl
    rw [List.cons_append, skipFrom_number hpoint,
      skipFrom_digitRun hs (fun c hc => (next?_digit hc).2.1) fun c hc => (next?_digit hc).2.2.1]
    exact skipFrom_exponentText he (.inr (.inr rfl)) hr

theorem beginValue_digit (hc : c.isDigit = true) :
    beginValue o c = .ok (.number (if c = '0' then .zero else .whole), o) := by
  have hne : ∀ d, d.isDigit = false → (c == d) = false := fun d hd =>
    beq_false_of_ne fun h => by rw [h, hd] at hc; cases hc
  have hblank : isBlank c = false := by
    simp [isBlank, hne ' ' rfl, hne '\n' rfl, hne '\t' rfl, hne '\r' rfl]
  rw [beginValue, hblank, hne 'n' rfl, hne 't' rfl, hne 'f' rfl, hne '-' rfl, hc]
  by_cases hzero : c = '0' <;> simp [hzero]

theorem skipFrom_unsigned (hs : Unsigned s) (hr : Closes r) (hp : p ≠ .after ∨ o ≠ [])
    (hdigit : ∀ c s, c.isDigit = true → p.settle (some c) = p ∧
      skipStep p o c s = .ok (.number (if c = '0' then .zero else .whole), o)) :
    skipFrom p o (s ++ r) = skipFrom .after o r := by
  cases hs with
  | @parts w f e hw hf he =>
    rw [List.append_assoc, List.append_assoc]
    cases hw with
    | zero =>
      have hstep := hdigit '0' (f ++ (e ++ r)) rfl
      rw [List.cons_append, List.nil_append, skipFrom_cons hstep.1 hp hstep.2]
      exact skipFrom_fractionText hf he (.inl rfl) hr
    | @digits c w hc hne hw =>
      have hstep := hdigit c (w ++ (f ++ (e ++ r))) hc
      rw [if_neg hne] at hstep
      rw [List.cons_append, skipFrom_cons hstep.1 hp hstep.2,
        skipFrom_digits (fun c hc => (next?_digit hc).1) hw]
      exact skipFrom_fractionText hf he (.inr rfl) hr

/-- A number is passed over. -/
theorem skipFrom_numberText (hs : NumberText s) (hr : Closes r) :
    skipFrom .value o (s ++ r) = skipFrom .after o r := by
  cases hs with
  | unsigned h =>
    exact skipFrom_unsigned h hr (.inl nofun) fun c _ hc => ⟨rfl, beginValue_digit hc⟩
  | @negative s h =>
    refine Eq.trans (skipFrom_cons rfl (.inl nofun) rfl) ?_
    refine skipFrom_unsigned h hr (.inl nofun) fun c s hc => ?_
    have hnext : Digits.sign.next? c = some (if c = '0' then .zero else .whole) := by
      by_cases hzero : c = '0' <;> simp [Digits.next?, hzero, hc]
    exact ⟨settle_number hnext, by simp only [skipStep, hnext]⟩

/-! ### Strings -/

theorem escape?_u : escape? 'u' = none := rfl

theorem hasFourBytes_cons (a b c d : Char) (s : List Char) :
    hasFourBytes (a :: b :: c :: d :: s) = true := by
  have ha := a.utf8Size_pos
  have hb := b.utf8Size_pos
  have hc := c.utf8Size_pos
  have hd := d.utf8Size_pos
  have hsum : 4 ≤ 0 + a.utf8Size + b.utf8Size + c.utf8Size + d.utf8Size := by omega
  exact decide_eq_true hsum

theorem skipFrom_hex {key : Bool} {n : Nat} (hc : (hexDigit? c).isSome = true) :
    skipFrom (.hex key n) o (c :: s) =
      skipFrom (if n ≤ 1 then .text key else .hex key (n - 1)) o s := by
  refine skipFrom_cons rfl (.inl nofun) ?_
  simp [skipStep, Option.isNone_eq_false_iff.2 hc]

/-- A string is passed over after its opening quote. -/
theorem skipFrom_textBody {key : Bool} (hs : TextBody s) :
    skipFrom (.text key) o (s ++ '"' :: r) = skipFrom (if key then .colon else .after) o r := by
  induction hs with
  | empty => exact skipFrom_cons rfl (.inl nofun) rfl
  | @plain c s hquote hescape hcontrol _ ih =>
    have hstep : skipStep (.text key) o c (s ++ '"' :: r) = .ok (.text key, o) := by
      simp [skipStep, insideText, hquote, hescape, hcontrol]
    exact Eq.trans (skipFrom_cons rfl (.inl nofun) hstep) ih
  | @escape c s hc _ ih =>
    have hu : c ≠ 'u' := fun h => by rw [h, escape?_u] at hc; cases hc
    have hstep : skipStep (.escape key) o c (s ++ '"' :: r) = .ok (.text key, o) := by
      simp [skipStep, insideEscape, hu, hc]
    refine Eq.trans (skipFrom_cons rfl (.inl nofun) rfl) ?_
    exact Eq.trans (skipFrom_cons rfl (.inl nofun) hstep) ih
  | @code a b c d s ha hb hc hd _ ih =>
    have hstep : skipStep (.escape key) o 'u' (a :: b :: c :: d :: (s ++ '"' :: r)) =
        .ok (.hex key 4, o) := by
      simp [skipStep, insideEscape, hasFourBytes_cons]
    refine Eq.trans (skipFrom_cons rfl (.inl nofun) rfl) ?_
    refine Eq.trans (skipFrom_cons rfl (.inl nofun) hstep) ?_
    -- the four digits are counted down
    refine (skipFrom_hex ha).trans ((skipFrom_hex hb).trans ((skipFrom_hex hc).trans ?_))
    exact (skipFrom_hex hd).trans ih

/-! ### Lists and objects -/

theorem exists_of_spells_value (h : Spells .value s) :
    ∃ c t, s = c :: t ∧ isBlank c = false ∧ c ≠ ']' := by
  have hdigit {c : Char} (hc : c.isDigit = true) : isBlank c = false ∧ c ≠ ']' := by
    refine ⟨isBlank_of_isDigit hc, ?_⟩
    rintro rfl
    cases hc
  cases h with
  | null | yes | no | text | emptyList | list | emptyObject | object =>
    exact ⟨_, _, rfl, rfl, by decide⟩
  | number h =>
    cases h with
    | negative => exact ⟨_, _, rfl, rfl, by decide⟩
    | unsigned h =>
      cases h with
      | parts hw =>
        cases hw with
        | zero => exact ⟨_, _, rfl, rfl, by decide⟩
        | digits hc => exact ⟨_, _, rfl, hdigit hc⟩

theorem skipFrom_value_blanks (hb : Blanks b) :
    skipFrom .value o (b ++ r) = skipFrom .value o r :=
  skipFrom_blanks hb (.inl nofun) fun c s hc => ⟨rfl, by simp [skipStep, beginValue, hc]⟩

theorem skipFrom_key_blanks (hb : Blanks b) : skipFrom .key o (b ++ r) = skipFrom .key o r :=
  skipFrom_blanks hb (.inl nofun) fun c s hc => ⟨rfl, by simp [skipStep, beginKey, hc]⟩

theorem skipFrom_colon_blanks (hb : Blanks b) : skipFrom .colon o (b ++ r) = skipFrom .colon o r :=
  skipFrom_blanks hb (.inl nofun) fun c s hc => ⟨rfl, by simp [skipStep, hc]⟩

theorem skipFrom_opened_blanks (hb : Blanks b) :
    skipFrom .opened o (b ++ r) = skipFrom .opened o r :=
  skipFrom_blanks hb (.inl nofun) fun c s hc => ⟨rfl, by simp [skipStep, firstItem, hc]⟩

theorem skipFrom_after_blanks {f : Frame} (hb : Blanks b) :
    skipFrom .after (f :: o) (b ++ r) = skipFrom .after (f :: o) r :=
  skipFrom_blanks hb (.inr nofun) fun c s hc => ⟨rfl, by simp [skipStep, afterItem, hc]⟩

theorem skipFrom_opened_value (h : Spells .value s) :
    skipFrom .opened (.list :: o) (s ++ r) = skipFrom .value (.list :: o) (s ++ r) := by
  obtain ⟨c, t, rfl, hblank, hne⟩ := exists_of_spells_value h
  have hfirst : firstItem (.list :: o) c = beginValue (.list :: o) c := by
    simp only [firstItem, hblank, Bool.false_eq_true, if_false]
    split <;> simp_all
  rw [List.cons_append, skipFrom.eq_def, skipFrom.eq_def .value]
  simp only [Place.settle, skipStep, hfirst]

/-- What the automaton makes of a text of this kind. -/
def Skips : Kind → List Char → Prop
  | .value, s => ∀ o r, Closes r → skipFrom .value o (s ++ r) = skipFrom .after o r
  | .items, s => ∀ o r,
    skipFrom .value (.list :: o) (s ++ ']' :: r) = skipFrom .after o r ∧
      skipFrom .opened (.list :: o) (s ++ ']' :: r) = skipFrom .after o r
  | .members, s => ∀ o r,
    skipFrom .key (.object :: o) (s ++ '\x7d' :: r) = skipFrom .after o r ∧
      skipFrom .opened (.object :: o) (s ++ '\x7d' :: r) = skipFrom .after o r

theorem skipFrom_word (w : List Char) : skipFrom (.word w) o (w ++ r) = skipFrom .after o r := by
  induction w with
  | nil => exact skipFrom_settled (by cases r <;> rfl)
  | cons c w ih =>
    have hstep : skipStep (.word (c :: w)) o c (w ++ r) = .ok (.word w, o) := by simp [skipStep]
    exact Eq.trans (skipFrom_cons rfl (.inl nofun) hstep) ih

theorem skipFrom_member {k b₁ b₂ v : List Char} (hk : TextBody k) (hb₁ : Blanks b₁)
    (hb₂ : Blanks b₂) (hv : Skips .value v) (hr : Closes r) :
    skipFrom (.text true) o (k ++ '"' :: (b₁ ++ ':' :: (b₂ ++ (v ++ r)))) =
      skipFrom .after o r := by
  rw [skipFrom_textBody hk, if_pos rfl, skipFrom_colon_blanks hb₁]
  refine Eq.trans (skipFrom_cons rfl (.inl nofun) rfl) ?_
  rw [skipFrom_value_blanks hb₂]
  exact hv o r hr

/-- Whatever the grammar derives is passed over, inside any open brackets. -/
theorem skips_of_spells {k : Kind} (h : Spells k s) : Skips k s := by
  induction h with
  | null | yes | no =>
    intro o r _
    exact Eq.trans (skipFrom_cons rfl (.inl nofun) rfl) (skipFrom_word _)
  | number h => exact fun o r hr => skipFrom_numberText h hr
  | @text s h =>
    intro o r _
    rw [List.cons_append, List.append_assoc]
    exact Eq.trans (skipFrom_cons rfl (.inl nofun) rfl) (skipFrom_textBody h)
  | emptyList hb | emptyObject hb =>
    intro o r _
    rw [List.cons_append, List.append_assoc]
    refine Eq.trans (skipFrom_cons rfl (.inl nofun) rfl) ?_
    rw [skipFrom_opened_blanks hb]
    exact skipFrom_cons rfl (.inl nofun) rfl
  | list h ih | object h ih =>
    intro o r _
    rw [List.cons_append, List.append_assoc]
    exact Eq.trans (skipFrom_cons rfl (.inl nofun) rfl) (ih o r).2
  | @lastItem b v b' hb hv hb' ih =>
    intro o r
    simp only [List.append_assoc]
    have htail : skipFrom .value (.list :: o) (v ++ (b' ++ ']' :: r)) = skipFrom .after o r := by
      rw [ih _ _ (hb'.closes (by rintro c ⟨⟩; decide)), skipFrom_after_blanks hb']
      exact skipFrom_cons rfl (.inr nofun) rfl
    rw [skipFrom_value_blanks hb, skipFrom_opened_blanks hb, skipFrom_opened_value hv]
    exact ⟨htail, htail⟩
  | @item b v b' s hb hv hb' hs ih ih' =>
    intro o r
    simp only [List.append_assoc, List.cons_append]
    have htail : skipFrom .value (.list :: o) (v ++ (b' ++ ',' :: (s ++ ']' :: r))) =
        skipFrom .after o r := by
      rw [ih _ _ (hb'.closes (by rintro c ⟨⟩; decide)), skipFrom_after_blanks hb']
      exact Eq.trans (skipFrom_cons rfl (.inr nofun) rfl) (ih' o r).1
    rw [skipFrom_value_blanks hb, skipFrom_opened_blanks hb, skipFrom_opened_value hv]
    exact ⟨htail, htail⟩
  | @lastMember b k b₁ b₂ v b' hb hk hb₁ hb₂ hv hb' ih =>
    intro o r
    simp only [List.append_assoc, List.cons_append]
    have htail : skipFrom (.text true) (.object :: o)
        (k ++ '"' :: (b₁ ++ ':' :: (b₂ ++ (v ++ (b' ++ '\x7d' :: r))))) = skipFrom .after o r := by
      rw [skipFrom_member hk hb₁ hb₂ ih (hb'.closes (by rintro c ⟨⟩; decide)),
        skipFrom_after_blanks hb']
      exact skipFrom_cons rfl (.inr nofun) rfl
    rw [skipFrom_key_blanks hb, skipFrom_opened_blanks hb]
    exact ⟨Eq.trans (skipFrom_cons rfl (.inl nofun) rfl) htail,
      Eq.trans (skipFrom_cons rfl (.inl nofun) rfl) htail⟩
  | @member b k b₁ b₂ v b' s hb hk hb₁ hb₂ hv hb' hs ih ih' =>
    intro o r
    simp only [List.append_assoc, List.cons_append]
    have htail : skipFrom (.text true) (.object :: o)
        (k ++ '"' :: (b₁ ++ ':' :: (b₂ ++ (v ++ (b' ++ ',' :: (s ++ '\x7d' :: r)))))) =
          skipFrom .after o r := by
      rw [skipFrom_member hk hb₁ hb₂ ih (hb'.closes (by rintro c ⟨⟩; decide)),
        skipFrom_after_blanks hb']
      exact Eq.trans (skipFrom_cons rfl (.inr nofun) rfl) (ih' o r).1
    rw [skipFrom_key_blanks hb, skipFrom_opened_blanks hb]
    exact ⟨Eq.trans (skipFrom_cons rfl (.inl nofun) rfl) htail,
      Eq.trans (skipFrom_cons rfl (.inl nofun) rfl) htail⟩

/-- A value is passed over up to its end, with the blanks before it. -/
theorem skip_value (hb : Blanks b) (h : Spells .value s) (hr : Closes r) :
    skip (b ++ (s ++ r)) = .ok r := by
  rw [skip, skipFrom_value_blanks hb, skips_of_spells h [] r hr, skip_after_nil]

end Json

end RemoteFile
