import RemoteFile.Decimal.Layout
import RemoteFile.Text.Quoted

/-!
# JSON text

How values are written as JSON: objects with their members in order and without blanks, strings
with the short escapes where there is one, numbers that are not finite as `null`.
-/

namespace RemoteFile

namespace Json

/-- One character of a string. -/
def stringChar (c : Char) : String :=
  if c == '"' then "\\\""
  else if c == '\\' then "\\\\"
  else if c.toNat == 0x8 then "\\b"
  else if c.toNat == 0x9 then "\\t"
  else if c.toNat == 0xA then "\\n"
  else if c.toNat == 0xC then "\\f"
  else if c.toNat == 0xD then "\\r"
  else if c.toNat < 0x10 then "\\u000" ++ Text.hex c.toNat
  else if c.toNat < 0x20 then "\\u00" ++ Text.hex c.toNat
  else c.toString

/-- A string. -/
def string (s : String) : String := "\"" ++ String.join (s.toList.map stringChar) ++ "\""

/-- A whole number. -/
def nat (n : Nat) : String := toString n

/-- A floating point number. -/
def float (x : Float) : String := (Decimal.Layout.data.finite? x).getD "null"

/-- An optional value. -/
def option {α : Type} (write : α → String) : Option α → String
  | none => "null"
  | some a => write a

/-- An object with its members in order. -/
def object (members : List (String × String)) : String :=
  "\x7b" ++ String.intercalate "," (members.map fun m => string m.1 ++ ":" ++ m.2) ++ "\x7d"

end Json

end RemoteFile
