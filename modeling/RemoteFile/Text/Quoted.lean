import RemoteFile.Text.Escaped

/-!
# Quoted text

Text between double quotes, in which what would not show is spelled out: `\"`, `\\`, `\n`, `\r`,
`\t`, `\0`, and the code point in hexadecimal digits between braces after `\u` for every other
character that has no printed form of its own. An apostrophe stands as it is.
-/

namespace RemoteFile

namespace Text

/-- The hexadecimal digits of a number, lower case and without leading zeros. -/
def hex (n : Nat) : String := String.ofList (Nat.toDigits 16 n)

/-- One character as it stands between quotes. -/
def quotedChar (c : Char) : String :=
  if c == '"' then "\\\""
  else if c == '\\' then "\\\\"
  else if c == '\n' then "\\n"
  else if c == '\r' then "\\r"
  else if c == '\t' then "\\t"
  else if c.toNat == 0 then "\\0"
  else if 0x20 ≤ c.toNat && c.toNat < 0x7F then c.toString
  else if isHidden c then "\\u\x7b" ++ hex c.toNat ++ "\x7d"
  else c.toString

/-- Text between quotes. -/
def quoted (s : String) : String :=
  "\"" ++ String.join (s.toList.map quotedChar) ++ "\""

end Text

end RemoteFile
