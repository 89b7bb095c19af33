import RemoteFile.Json.Record
import RemoteFile.Json.Text
import RemoteFile.Proofs.Json.Grammar
import RemoteFile.Proofs.Range.Header

/-!
# Names and numbers in text

How names and numbers are spelled, and that they are read as they are spelled, up to whatever closes
them. A name may be spelled with escapes, and it is written as one of its spellings: with a letter
after a backslash where there is one, and with a code for all other control characters.

Main statements:

* `quotedString_spelling` : a name is read as it is spelled.
* `spelling_string` : a name is written as one of its spellings.
* `natural_digits`, `nullable_nullableText` : so are numbers, and numbers that may be missing.
-/

namespace RemoteFile

namespace Json

/-! ### Names -/

/-- A text between quotes, with the characters that it stands for. -/
inductive Spelling : List Char → List Char → Prop
  /-- Nothing. -/
  | empty : Spelling [] []
  /-- A character that stands for itself. -/
  | plain {c : Char} {s t : List Char} (hquote : c ≠ '"') (hescape : c ≠ '\\')
      (hcontrol : ¬ c.toNat < 0x20) (hs : Spelling s t) : Spelling (c :: s) (c :: t)
  /-- A letter after a backslash. -/
  | escape {c e : Char} {s t : List Char} (hc : escape? c = some e) (hs : Spelling s t) :
      Spelling ('\\' :: c :: s) (e :: t)
  /-- The four digits of a code. -/
  | code {a b c d : Char} {n : Nat} {s t : List Char} (hn : hexValue? a b c d = some n)
      (hleading : isLeading n = false) (htrailing : isTrailing n = false) (hs : Spelling s t) :
      Spelling ('\\' :: 'u' :: a :: b :: c :: d :: s) (Char.ofNat n :: t)
  /-- Two of them that make up a pair. -/
  | pair {a b c d e f g h : Char} {n m : Nat} {s t : List Char}
      (hn : hexValue? a b c d = some n) (hleading : isLeading n = true)
      (hm : hexValue? e f g h = some m) (htrailing : isTrailing m = true) (hs : Spelling s t) :
      Spelling ('\\' :: 'u' :: a :: b :: c :: d :: '\\' :: 'u' :: e :: f :: g :: h :: s)
        (paired n m :: t)

variable {acc b r s t : List Char}

theorem isTrailing_of_isLeading {n : Nat} (h : isLeading n = true) : isTrailing n = false := by
  simp only [isLeading, isTrailing, Bool.and_eq_true, decide_eq_true_eq, Bool.and_eq_false_iff,
    decide_eq_false_iff_not] at h ⊢
  omega

/-- A code that is no half of a pair is read on its own, whatever follows. -/
theorem stringFrom_code {a b c d : Char} {n : Nat} (hn : hexValue? a b c d = some n)
    (hleading : isLeading n = false) (htrailing : isTrailing n = false) :
    stringFrom acc ('\\' :: 'u' :: a :: b :: c :: d :: s) =
      stringFrom (Char.ofNat n :: acc) s := by
  rw [stringFrom.eq_def]
  split <;> grind

theorem stringFrom_plain {c : Char} (hquote : c ≠ '"') (hescape : c ≠ '\\')
    (hcontrol : ¬ c.toNat < 0x20) : stringFrom acc (c :: s) = stringFrom (c :: acc) s := by
  rw [stringFrom.eq_def]
  split <;> grind

theorem stringFrom_escape {c e : Char} (hc : escape? c = some e) :
    stringFrom acc ('\\' :: c :: s) = stringFrom (e :: acc) s := by
  have hu : c ≠ 'u' := fun h => by rw [h, escape?_u] at hc; cases hc
  rw [stringFrom.eq_def]
  split <;> grind

theorem stringFrom_pair {a b c d e f g h : Char} {n m : Nat} (hn : hexValue? a b c d = some n)
    (hleading : isLeading n = true) (hm : hexValue? e f g h = some m)
    (htrailing : isTrailing m = true) :
    stringFrom acc ('\\' :: 'u' :: a :: b :: c :: d :: '\\' :: 'u' :: e :: f :: g :: h :: s) =
      stringFrom (paired n m :: acc) s := by
  have hfirst := isTrailing_of_isLeading hleading
  rw [stringFrom.eq_def]
  split <;> grind

theorem stringFrom_spelling (h : Spelling s t) :
    stringFrom acc (s ++ '"' :: r) = .ok (String.ofList (acc.reverse ++ t), r) := by
  have hcons (c : Char) (t acc : List Char) : (c :: acc).reverse ++ t = acc.reverse ++ c :: t := by
    simp
  induction h generalizing acc with
  | empty => rw [List.append_nil]; rfl
  | plain hquote hescape hcontrol hs ih =>
    rw [List.cons_append, stringFrom_plain hquote hescape hcontrol, ih, hcons]
  | escape hc hs ih => rw [List.cons_append, List.cons_append, stringFrom_escape hc, ih, hcons]
  | code hn hleading htrailing hs ih =>
    simp only [List.cons_append]
    rw [stringFrom_code hn hleading htrailing, ih, hcons]
  | pair hn hleading hm htrailing hs ih =>
    simp only [List.cons_append]
    rw [stringFrom_pair hn hleading hm htrailing, ih, hcons]

/-- A name is read as it is spelled. -/
theorem quotedString_spelling {name : String} (h : Spelling s name.toList) :
    quotedString (s ++ '"' :: r) = .ok (name, r) := by
  rw [quotedString, stringFrom_spelling h, List.reverse_nil, List.nil_append, String.ofList_toList]

/-! ### Written names -/

/-- The codes of the characters that are written as a letter after a backslash. -/
def shortCodes : List Nat := [0x8, 0x9, 0xA, 0xC, 0xD, 0x22, 0x5C]

/-- The character that a letter after a backslash stands for. -/
def shortEscape? : List Char → Option Char
  | ['\\', c] => escape? c
  | _ => none

/-- The number in an escape of four digits. -/
def codeEscape? : List Char → Option Nat
  | ['\\', 'u', a, b, c, d] => hexValue? a b c d
  | _ => none

theorem shortEscape?_eq_some {s : List Char} {c : Char} (h : shortEscape? s = some c) :
    ∃ e, s = ['\\', e] ∧ escape? e = some c := by
  unfold shortEscape? at h
  split at h
  · exact ⟨_, rfl, h⟩
  · cases h

theorem codeEscape?_eq_some {s : List Char} {n : Nat} (h : codeEscape? s = some n) :
    ∃ a b c d, s = ['\\', 'u', a, b, c, d] ∧ hexValue? a b c d = some n := by
  unfold codeEscape? at h
  split at h
  · exact ⟨_, _, _, _, rfl, h⟩
  · cases h

theorem shortEscape?_stringChar {c : Char} (hc : c.toNat ∈ shortCodes) :
    shortEscape? (stringChar c).toList = some c := by
  have hall : ∀ n ∈ shortCodes,
      shortEscape? (stringChar (Char.ofNat n)).toList = some (Char.ofNat n) := by decide
  have hescape := hall c.toNat hc
  rwa [Char.ofNat_toNat] at hescape

theorem codeEscape?_stringChar {c : Char} (hc : c.toNat ∉ shortCodes) (hlt : c.toNat < 0x20) :
    codeEscape? (stringChar c).toList = some c.toNat := by
  have hall : ∀ n < 0x20, n ∉ shortCodes →
      codeEscape? (stringChar (Char.ofNat n)).toList = some n := by decide
  have hescape := hall c.toNat hlt hc
  rwa [Char.ofNat_toNat] at hescape

theorem stringChar_plain {c : Char} (hc : c.toNat ∉ shortCodes) (hle : ¬ c.toNat < 0x20) :
    (stringChar c).toList = [c] ∧ c ≠ '"' ∧ c ≠ '\\' := by
  have hquote : c ≠ '"' := by rintro rfl; exact hc (by decide)
  have hescape : c ≠ '\\' := by rintro rfl; exact hc (by decide)
  simp only [shortCodes, List.mem_cons, List.not_mem_nil, not_or] at hc
  refine ⟨?_, hquote, hescape⟩
  rw [stringChar, if_neg (by simpa using hquote), if_neg (by simpa using hescape)]
  have hlow : ¬ c.toNat < 0x10 := by omega
  simp only [beq_iff_eq, hc, hle, hlow, if_false]
  exact String.toList_singleton c

theorem spelling_stringChar {c : Char} {s t : List Char} (hs : Spelling s t) :
    Spelling ((stringChar c).toList ++ s) (c :: t) := by
  by_cases hc : c.toNat ∈ shortCodes
  · obtain ⟨e, htext, hvalue⟩ := shortEscape?_eq_some (shortEscape?_stringChar hc)
    rw [htext]
    exact .escape hvalue hs
  by_cases hlt : c.toNat < 0x20
  · obtain ⟨a, b, d, e, htext, hvalue⟩ := codeEscape?_eq_some (codeEscape?_stringChar hc hlt)
    have hhalf : isLeading c.toNat = false ∧ isTrailing c.toNat = false := by
      simp only [isLeading, isTrailing, Bool.and_eq_false_iff, decide_eq_false_iff_not]
      omega
    have hcode := Spelling.code hvalue hhalf.1 hhalf.2 hs
    rw [Char.ofNat_toNat] at hcode
    rw [htext]
    exact hcode
  · obtain ⟨htext, hquote, hescape⟩ := stringChar_plain hc hlt
    rw [htext]
    exact .plain hquote hescape hlt hs

/-- A string is written as one of its spellings. -/
theorem spelling_string (name : String) :
    ∃ k, (string name).toList = '"' :: (k ++ ['"']) ∧ Spelling k name.toList := by
  refine ⟨name.toList.flatMap fun c => (stringChar c).toList, ?_, ?_⟩
  · simp [string, String.toList_join, List.flatMap_map]
  · induction name.toList with
    | nil => exact .empty
    | cons c s ih => exact spelling_stringChar ih

/-! ### Numbers -/

theorem head_digits {n : Nat} (hn : 0 < n) : ∀ c ∈ (Text.digits n).head?, c ≠ '0' := by
  have hdigit : ∀ m, m < 10 → 0 < m → Nat.digitChar m ≠ '0' := by decide
  induction n using Nat.strongRecOn with
  | _ n ih =>
    intro c hc
    rw [Text.digits, Nat.toDigits_eq_if (by decide)] at hc
    split at hc
    · rename_i hlt
      cases hc
      exact hdigit n hlt hn
    · rename_i hle
      rw [List.head?_append_of_ne_nil _ Nat.toDigits_ne_nil] at hc
      exact ih (n / 10) (by omega) (by omega) c hc

theorem skipBlanks_append (hb : Blanks b) {c : Char} (hc : isBlank c = false) :
    skipBlanks (b ++ c :: r) = c :: r := by
  rw [skipBlanks, List.dropWhile_append_of_pos hb, List.dropWhile_cons_of_neg (by simp [hc])]

theorem exists_digits (n : Nat) : ∃ c t, Text.digits n = c :: t ∧ c.isDigit = true := by
  cases hdigits : Text.digits n with
  | nil => exact absurd hdigits (Text.digits_ne_nil n)
  | cons c t => exact ⟨c, t, rfl, Text.isDigit_of_mem_digits (hdigits ▸ List.mem_cons_self)⟩

theorem digits_append (hs : ∀ c ∈ s, c.isDigit = true) (hr : Closes r) :
    digits (s ++ r) = (s, r) := by
  have htake : r.takeWhile Char.isDigit = [] ∧ r.dropWhile Char.isDigit = r := by
    cases r with
    | nil => exact ⟨rfl, rfl⟩
    | cons c r => simp [(hr c rfl).1]
  rw [digits, List.takeWhile_append_of_pos hs, List.dropWhile_append_of_pos hs, htake.1, htake.2,
    List.append_nil]

theorem afterWhole_closes {n : Nat} (hn : n < wordLimit) (hr : Closes r) :
    afterWhole false n r = .ok (.whole n, r) := by
  have hintegral : integral false n = .ok (.whole n) := by simp [integral, hn]
  unfold afterWhole
  split
  · exact absurd rfl (hr _ rfl).2.1
  · exact absurd rfl (hr _ rfl).2.2.1
  · exact absurd rfl (hr _ rfl).2.2.2
  · rw [hintegral]
    rfl

theorem number_digits {n : Nat} (hn : n < wordLimit) (hr : Closes r) :
    number false (Text.digits n ++ r) = .ok (.whole n, r) := by
  rw [number, digits_append (fun c => Text.isDigit_of_mem_digits) hr]
  dsimp only
  split
  · rename_i hnil
    exact absurd hnil (Text.digits_ne_nil n)
  · rename_i hzero
    have hvalue := Text.digitsValue_digits n
    rw [hzero] at hvalue
    obtain rfl : 0 = n := hvalue
    exact afterWhole_closes hn hr
  · rename_i t hne hzero
    -- a number that is written with a zero in front is zero, and has no other digits
    rcases Nat.eq_zero_or_pos n with rfl | hpos
    · rw [Text.digits, Nat.toDigits_zero] at hzero
      cases hzero
      exact absurd rfl hne
    · exact absurd rfl (head_digits hpos '0' (by rw [hzero]; rfl))
  · rw [Text.digitsValue_digits]
    exact afterWhole_closes hn hr

/-- A number is read from its digits. -/
theorem natural_digits {n : Nat} (hb : Blanks b) (hn : n < wordLimit) (hr : Closes r) :
    natural wordLimit (b ++ (Text.digits n ++ r)) = .ok (n, r) := by
  have hnumber := number_digits hn hr
  obtain ⟨c, t, hdigits, hc⟩ := exists_digits n
  rw [hdigits] at hnumber ⊢
  rw [List.cons_append, natural, numeric, skipBlanks_append hb (isBlank_of_isDigit hc)]
  split
  · rename_i hnil
    cases hnil
  · rename_i hminus
    cases hminus
    cases hc
  · rename_i heq
    cases heq
    rw [if_pos hc, ← List.cons_append, hnumber]
    simp [accepting, below, hn]

/-- A number, or the word that stands for none. -/
def nullableText : Option Nat → List Char
  | none => ['n', 'u', 'l', 'l']
  | some n => Text.digits n

/-- A number that may be missing is read from its text. -/
theorem nullable_nullableText {x : Option Nat} (hb : Blanks b)
    (hx : ∀ n, x = some n → n < wordLimit) (hr : Closes r) :
    nullable (natural wordLimit) (b ++ (nullableText x ++ r)) = .ok (x, r) := by
  cases x with
  | none =>
    rw [nullableText, List.cons_append, nullable, skipBlanks_append hb rfl]
    rfl
  | some n =>
    have hnatural := natural_digits blanks_nil (hx n rfl) hr
    obtain ⟨c, t, hdigits, hc⟩ := exists_digits n
    rw [hdigits, List.nil_append] at hnatural
    rw [nullableText, hdigits, List.cons_append, nullable,
      skipBlanks_append hb (isBlank_of_isDigit hc)]
    split
    · rename_i heq
      cases heq
      cases hc
    · rw [← List.cons_append, hnatural]

end Json

end RemoteFile
