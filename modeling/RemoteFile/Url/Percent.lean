/-!
# Percent encoding

Bytes that a part of a URL must not hold are written as `%` and two upper-case hexadecimal digits,
characters beyond ASCII byte by byte as UTF-8.
-/

namespace RemoteFile

namespace Url

/-- The value of a hexadecimal digit of either case. -/
def hexDigit? (c : Char) : Option Nat :=
  if '0' ≤ c && c ≤ '9' then some (c.toNat - '0'.toNat)
  else if 'a' ≤ c && c ≤ 'f' then some (c.toNat - 'a'.toNat + 10)
  else if 'A' ≤ c && c ≤ 'F' then some (c.toNat - 'A'.toNat + 10)
  else none

/-- A hexadecimal digit, upper case. -/
def hexChar (n : Nat) : Char :=
  if n < 10 then Char.ofNat ('0'.toNat + n) else Char.ofNat ('A'.toNat + (n - 10))

/-- One byte, encoded. -/
def encodeByte (b : UInt8) : List Char := ['%', hexChar (b.toNat / 16), hexChar (b.toNat % 16)]

/-- Text in which the characters of a set, and those beyond ASCII, are encoded. -/
def encode (inSet : Char → Bool) (s : List Char) : List Char :=
  s.flatMap fun c =>
    if inSet c || 0x80 ≤ c.toNat then (String.utf8EncodeChar c).flatMap encodeByte else [c]

/-- The bytes of a text, encoded ones decoded. -/
def decode : List Char → List UInt8
  | [] => []
  | '%' :: a :: b :: s =>
    match hexDigit? a, hexDigit? b with
    | some x, some y => UInt8.ofNat (16 * x + y) :: decode s
    | _, _ => UInt8.ofNat '%'.toNat :: decode (a :: b :: s)
  | c :: s => String.utf8EncodeChar c ++ decode s

/-- The characters that a path segment must not hold. -/
def pathSet (c : Char) : Bool :=
  c.toNat ≤ 0x20 || c.toNat == 0x7F || c == '"' || c == '<' || c == '>' || c.toNat == 0x60 ||
    c == '#' || c == '?' || c == '\x7b' || c == '\x7d'

end Url

end RemoteFile
