import RemoteFile.Text.Blank
import RemoteFile.Url.Address
import RemoteFile.Url.Punycode

/-!
# Domain names

A domain name is compared and written in lower-case ASCII: letters are mapped to lower case,
characters that are looked at as others are replaced, labels beyond ASCII are written in Punycode.
Names with characters that separate the parts of a URL are refused.
-/

namespace RemoteFile

namespace Url

/-- The characters that no domain name holds. -/
def isDenied (c : Char) : Bool :=
  c.toNat ≤ 0x20 || c.toNat == 0x7F || "#%/:<>?@[\\]^|".toList.contains c

/-- Lower case, for the alphabets with a regular arrangement of cases. -/
def lowerPoint (n : Nat) : Nat :=
  let within (a b : Nat) : Bool := a ≤ n && n ≤ b
  if within 0x41 0x5A then n + 0x20
  else if n < 0x80 then n
  else if within 0xC0 0xDE && n != 0xD7 then n + 0x20
  else if n == 0x178 then 0xFF
  else if (within 0x139 0x148 || within 0x179 0x17E) && n % 2 == 1 then n + 1
  else if (within 0x100 0x137 || within 0x14A 0x177) && n % 2 == 0 && n != 0x130 then n + 1
  else if n == 0x386 then 0x3AC
  else if within 0x388 0x38A then n + 37
  else if n == 0x38C then 0x3CC
  else if within 0x38E 0x38F then n + 63
  else if within 0x391 0x3AB && n != 0x3A2 then n + 0x20
  else if within 0x400 0x40F then n + 0x50
  else if within 0x410 0x42F then n + 0x20
  else if (within 0x460 0x481 || within 0x48A 0x4BF || within 0x4D0 0x52F) && n % 2 == 0 then n + 1
  else if within 0x531 0x556 then n + 0x30
  else if (within 0x1E00 0x1E95 || within 0x1EA0 0x1EFF) && n % 2 == 0 && n != 0x1E9E then n + 1
  else n

/-- What a character is replaced by: nothing for one that only affects layout, a dot for other full
stops, the plain form of a wide one. -/
def mapped (c : Char) : List Char :=
  let n := c.toNat
  if n == 0xAD || n == 0x200B || n == 0x2060 || n == 0xFEFF then []
  else if n == 0x3002 || n == 0xFF61 then ['.']
  else if 0xFF01 ≤ n && n ≤ 0xFF5E then [Char.ofNat (lowerPoint (n - 0xFEE0))]
  else [Char.ofNat (lowerPoint n)]

/-- A character that no label holds: blanks, private and unassigned ones. -/
def isUnusable (c : Char) : Bool :=
  isDenied c || (0x80 ≤ c.toNat && Text.isBlank c) || (0x80 ≤ c.toNat && c.toNat ≤ 0x9F) ||
    (0xE000 ≤ c.toNat && c.toNat ≤ 0xF8FF) || c.toNat == 0xFFFD || 0xE0000 ≤ c.toNat

/-- The rest of a label after the mark of Punycode. -/
def afterMark : List Char → Option (List Char)
  | 'x' :: 'n' :: '-' :: '-' :: s => some s
  | _ => none

/-- A label in ASCII. -/
def asciiLabel? (label : List Char) : Option (List Char) :=
  if label.any isUnusable then none
  else
    match afterMark label with
    | some s =>
      match Punycode.decode s with
      | none => none
      | some decoded =>
        if decoded.all (·.toNat < 0x80) || decoded.any isUnusable ||
            decoded.flatMap mapped != decoded then none
        else some label
    | none =>
      if label.all (·.toNat < 0x80) then some label
      else some ("xn--".toList ++ Punycode.encode label)

/-- A domain name in ASCII. -/
def asciiDomain? (s : List Char) : Option (List Char) := do
  let labels ← (splitOn '.' (s.flatMap mapped)).mapM asciiLabel?
  some (List.intercalate ['.'] labels)

/-- A domain name in ASCII, from the bytes of its UTF-8 form. -/
def domainOfBytes? (bytes : List UInt8) : Option (List Char) :=
  (String.fromUTF8? (ByteArray.mk bytes.toArray)).bind fun s => asciiDomain? s.toList

end Url

end RemoteFile
