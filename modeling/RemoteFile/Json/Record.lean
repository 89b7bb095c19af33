import RemoteFile.Json.Number
import RemoteFile.Json.Skip

/-!
# Records from JSON

A record with defaults is loaded from a JSON object that gives any of its fields in any order, or
from a list of its fields in order. Members of other names are skipped, a field that is given twice
is a mismatch, and what is not given keeps its default. Faults are reported in the order in which a
reader meets them.
-/

namespace RemoteFile

namespace Json

variable {α ρ : Type}

/-- What is wrong with a value of an unexpected kind: it may not be JSON at all. -/
def unexpected (s : List Char) : Fault :=
  let ofWord (r : Except Fault (List Char)) : Fault :=
    match r with
    | .error fault => fault
    | .ok _ => .mismatch
  let ofNumber (r : Read Number) : Fault :=
    match r with
    | .error fault => fault
    | .ok _ => .mismatch
  match s with
  | 'n' :: r => ofWord (word "ull".toList r)
  | 't' :: r => ofWord (word "rue".toList r)
  | 'f' :: r => ofWord (word "alse".toList r)
  | '-' :: r => ofNumber (number true r)
  | '"' :: r =>
    match quotedString r with
    | .error fault => fault
    | .ok _ => .mismatch
  | '[' :: _ => .mismatch
  | c :: _ =>
    if c == '\x7b' then .mismatch
    else if c.isDigit then ofNumber (number false s)
    else .malformed
  | [] => .malformed

/-- Accepts a number that was read, or calls it a mismatch. -/
def accepting (accept : Number → Option α) (r : Read Number) : Read α :=
  match r with
  | .error fault => .error fault
  | .ok (n, rest) =>
    match accept n with
    | none => .error .mismatch
    | some a => .ok (a, rest)

/-- Reads a number of some kind. -/
def numeric (accept : Number → Option α) (s : List Char) : Read α :=
  match skipBlanks s with
  | [] => .error .truncated
  | '-' :: r => accepting accept (number true r)
  | c :: r =>
    if c.isDigit then accepting accept (number false (c :: r)) else .error (unexpected (c :: r))

/-- A whole number below a limit. -/
def below (limit : Nat) : Number → Option Nat
  | .whole n => if n < limit then some n else none
  | _ => none

/-- Reads a whole number below a limit. -/
def natural (limit : Nat) (s : List Char) : Read Nat := numeric (below limit) s

/-- Reads a floating point number; a whole number may stand for it. -/
def floating (s : List Char) : Read Float :=
  numeric (fun
    | .whole n => some n.toFloat
    | .negative n => some (-n.toFloat)
    | .real x => some x) s

/-- Reads a value that may be `null`. -/
def nullable (read : List Char → Read α) (s : List Char) : Read (Option α) :=
  match skipBlanks s with
  | 'n' :: r =>
    match word "ull".toList r with
    | .error fault => .error fault
    | .ok rest => .ok (none, rest)
  | s =>
    match read s with
    | .error fault => .error fault
    | .ok (a, rest) => .ok (some a, rest)

/-- A field of a record. -/
structure RecordField (ρ : Type) where
  /-- The name that the field has in an object. -/
  name : String
  /-- Reads the value of the field into a record. -/
  read : ρ → List Char → Read ρ

/-- A field from a reader of its values and what it sets. -/
def RecordField.of (name : String) (read : List Char → Read α) (set : ρ → α → ρ) : RecordField ρ :=
  { name := name
    read := fun record s =>
      match read s with
      | .error fault => .error fault
      | .ok (a, rest) => .ok (set record a, rest) }

/-- The end of a list that has no further items. -/
def endOfList (record : ρ) (s : List Char) : Read ρ :=
  match skipBlanks s with
  | [] => .error .truncated
  | ']' :: rest => .ok (record, rest)
  | _ => .error .malformed

/-- Reads the fields in order after the opening bracket of a list. -/
def items : List (RecordField ρ) → Bool → ρ → List Char → Read ρ
  | [], _, record, s => endOfList record s
  | f :: fs, first, record, s =>
    let next (s : List Char) : Read ρ :=
      match f.read record s with
      | .error fault => .error fault
      | .ok (record, rest) => items fs false record rest
    match skipBlanks s, first with
    | [], _ => .error .truncated
    | ']' :: rest, _ => .ok (record, rest)
    | s, true => next s
    | ',' :: s, false =>
      match skipBlanks s with
      | [] => .error .truncated
      | ']' :: _ => .error .malformed
      | s => next s
    | _, false => .error .malformed

/-- The next key of an object: none at its end, else the text after the opening quote. -/
def nextKey (first : Bool) (s : List Char) : Except Fault (Bool × List Char) :=
  match skipBlanks s, first with
  | [], _ => .error .truncated
  | '\x7d' :: rest, _ => .ok (false, rest)
  | '"' :: s, true => .ok (true, s)
  | ',' :: s, false =>
    match skipBlanks s with
    | [] => .error .truncated
    | '"' :: s => .ok (true, s)
    | _ => .error .malformed
  | _, _ => .error .malformed

/-- Passes over the colon after a key. -/
def colon (s : List Char) : Except Fault (List Char) :=
  match skipBlanks s with
  | [] => .error .truncated
  | ':' :: s => .ok s
  | _ => .error .malformed

/-- Reads the value of the member named `key` and notes its name. -/
def member (fields : List (RecordField ρ)) (seen : List String) (key : String) (record : ρ)
    (s : List Char) : Except Fault (List String × ρ × List Char) :=
  match fields.find? (·.name == key) with
  | none => do
    let rest ← skip (← colon s)
    .ok (seen, record, rest)
  | some f =>
    if seen.contains key then .error .mismatch
    else do
      let (record, rest) ← f.read record (← colon s)
      .ok (key :: seen, record, rest)

/-- Reads at most so many members after the opening bracket of an object. -/
def members (fields : List (RecordField ρ)) :
    Nat → Bool → List String → ρ → List Char → Except Fault (ρ × List Char)
  | 0, _, _, _, _ => .error .malformed
  | fuel + 1, first, seen, record, s => do
    let (more, s) ← nextKey first s
    if !more then .ok (record, s)
    else
      let (key, s) ← quotedString s
      let (seen, record, s) ← member fields seen key record s
      members fields fuel false seen record s

/-- Reads a record: an object, or a list of its fields. A text has fewer members than characters. -/
def record (fields : List (RecordField ρ)) (default : ρ) (s : List Char) : Read ρ :=
  match skipBlanks s with
  | [] => .error .truncated
  | '[' :: s => items fields true default s
  | c :: s =>
    if c == '\x7b' then members fields (s.length + 1) true [] default s
    else .error (unexpected (c :: s))

/-- Loads a record from a whole text. -/
def load (fields : List (RecordField ρ)) (default : ρ) (text : String) : Except Fault ρ :=
  match record fields default text.toList with
  | .error fault => .error fault
  | .ok (r, rest) => if (skipBlanks rest).isEmpty then .ok r else .error .malformed

end Json

end RemoteFile
