/-!
# Faults of JSON text

What is wrong with a text that is read as JSON, and the pieces that every reader shares: blanks
and literal words. A reader takes the text that is left and returns what it read with the rest.
-/

namespace RemoteFile

namespace Json

/-- What is wrong with a text. -/
inductive Fault where
  /-- No JSON text starts like this. -/
  | malformed
  /-- The text is JSON, but not of the kind that is expected. -/
  | mismatch
  /-- The text ends too early. -/
  | truncated
deriving DecidableEq, Repr

/-- A reader's result: the value and the text that is left. -/
abbrev Read (α : Type) := Except Fault (α × List Char)

/-- A character between tokens. -/
def isBlank (c : Char) : Bool := c == ' ' || c == '\n' || c == '\t' || c == '\r'

/-- The text without the blanks at its start. -/
def skipBlanks (s : List Char) : List Char := s.dropWhile isBlank

/-- Reads the given characters. -/
def word : List Char → List Char → Except Fault (List Char)
  | [], s => .ok s
  | _ :: _, [] => .error .truncated
  | w :: ws, c :: s => if c = w then word ws s else .error .malformed

end Json

end RemoteFile
