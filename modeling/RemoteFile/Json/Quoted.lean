import RemoteFile.Json.Fault

/-!
# JSON strings

Strings are read after their opening quote, escapes taken back. Characters below the space have to
be escaped; code points beyond 16 bits are written as a pair of escapes, of which neither may stand
alone.
-/

namespace RemoteFile

namespace Json

/-- The value of a hexadecimal digit. -/
def hexDigit? (c : Char) : Option Nat :=
  if '0' ≤ c && c ≤ '9' then some (c.toNat - '0'.toNat)
  else if 'a' ≤ c && c ≤ 'f' then some (c.toNat - 'a'.toNat + 10)
  else if 'A' ≤ c && c ≤ 'F' then some (c.toNat - 'A'.toNat + 10)
  else none

/-- The value of four hexadecimal digits. -/
def hexValue? (a b c d : Char) : Option Nat := do
  let a ← hexDigit? a
  let b ← hexDigit? b
  let c ← hexDigit? c
  let d ← hexDigit? d
  some (((a * 16 + b) * 16 + c) * 16 + d)

/-- At least four bytes are left, when the text is encoded as UTF-8. -/
def hasFourBytes (s : List Char) : Bool := 4 ≤ (s.take 4).foldl (fun n c => n + c.utf8Size) 0

/-- What is wrong with an escape whose four digits are not there. -/
def hexFault (s : List Char) : Fault := if hasFourBytes s then .malformed else .truncated

/-- The character that a letter stands for after a backslash. -/
def escape? : Char → Option Char
  | '"' => some '"'
  | '\\' => some '\\'
  | '/' => some '/'
  | 'b' => some '\x08'
  | 'f' => some '\x0c'
  | 'n' => some '\n'
  | 'r' => some '\r'
  | 't' => some '\t'
  | _ => none

/-- The first half of a pair. -/
def isLeading (n : Nat) : Bool := 0xD800 ≤ n && n ≤ 0xDBFF

/-- The second half of a pair. -/
def isTrailing (n : Nat) : Bool := 0xDC00 ≤ n && n ≤ 0xDFFF

/-- The code point of a pair. -/
def paired (high low : Nat) : Char :=
  Char.ofNat (0x10000 + (high - 0xD800) * 0x400 + (low - 0xDC00))

/-- What is wrong with the first half of a pair that `s` does not complete. -/
def pairFault : List Char → Fault
  | [] => .truncated
  | ['\\'] => .truncated
  | '\\' :: 'u' :: s =>
    match s with
    | a :: b :: c :: d :: _ => if (hexValue? a b c d).isNone then hexFault s else .malformed
    | _ => hexFault s
  | _ => .malformed

/-- Reads a string after its opening quote; `acc` holds the characters read so far, the newest
first. -/
def stringFrom (acc : List Char) : List Char → Read String
  | [] => .error .truncated
  | '"' :: s => .ok (String.ofList acc.reverse, s)
  | ['\\'] => .error .truncated
  | '\\' :: 'u' :: a :: b :: c :: d :: '\\' :: 'u' :: e :: f :: g :: h :: s =>
    match hexValue? a b c d with
    | none => .error (hexFault (a :: b :: c :: d :: '\\' :: 'u' :: e :: f :: g :: h :: s))
    | some n =>
      if isTrailing n then .error .malformed
      else if isLeading n then
        match hexValue? e f g h with
        | none => .error (hexFault (e :: f :: g :: h :: s))
        | some m =>
          if isTrailing m then stringFrom (paired n m :: acc) s else .error .malformed
      else stringFrom (Char.ofNat n :: acc) ('\\' :: 'u' :: e :: f :: g :: h :: s)
  | '\\' :: 'u' :: a :: b :: c :: d :: s =>
    match hexValue? a b c d with
    | none => .error (hexFault (a :: b :: c :: d :: s))
    | some n =>
      if isTrailing n then .error .malformed
      else if isLeading n then .error (pairFault s)
      else stringFrom (Char.ofNat n :: acc) s
  | '\\' :: 'u' :: s => .error (hexFault s)
  | '\\' :: c :: s =>
    match escape? c with
    | none => .error .malformed
    | some e => stringFrom (e :: acc) s
  | c :: s => if c.toNat < 0x20 then .error .malformed else stringFrom (c :: acc) s

/-- Reads a string after its opening quote. -/
def quotedString (s : List Char) : Read String := stringFrom [] s

end Json

end RemoteFile
