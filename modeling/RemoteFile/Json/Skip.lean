import RemoteFile.Json.Quoted

/-!
# Skipping JSON values

A value of no interest is passed over character by character: the automaton below holds the
brackets that are open and the place inside the innermost one, so values of any depth are skipped.
Escapes of strings are looked at only as far as their digits go.
-/

namespace RemoteFile

namespace Json

/-- An open bracket. -/
inductive Frame where
  /-- A list. -/
  | list
  /-- An object. -/
  | object
deriving DecidableEq, Repr

/-- A part of a number. -/
inductive Digits where
  /-- The sign was read. -/
  | sign
  /-- A zero was read. -/
  | zero
  /-- Digits of the whole part were read. -/
  | whole
  /-- The point was read. -/
  | point
  /-- Digits of the fraction were read. -/
  | fraction
  /-- The letter of the exponent was read. -/
  | letter
  /-- The sign of the exponent was read. -/
  | exponentSign
  /-- Digits of the exponent were read. -/
  | exponent
deriving DecidableEq, Repr

/-- Where in a value the reader is. -/
inductive Place where
  /-- A value is due. -/
  | value
  /-- A bracket was opened: its first item or its end is due. -/
  | opened
  /-- A value is complete. -/
  | after
  /-- A key is due. -/
  | key
  /-- The colon after a key is due. -/
  | colon
  /-- Inside a string, which may be a key. -/
  | text (key : Bool)
  /-- After a backslash in a string. -/
  | escape (key : Bool)
  /-- So many digits of an escape are due. -/
  | hex (key : Bool) (left : Nat)
  /-- These characters of a literal word are due. -/
  | word (rest : List Char)
  /-- Inside a number. -/
  | number (part : Digits)
deriving DecidableEq, Repr

/-- A number may end after this part. -/
def Digits.complete : Digits → Bool
  | .zero | .whole | .fraction | .exponent => true
  | _ => false

/-- The part of a number that a character leads to. -/
def Digits.next? (part : Digits) (c : Char) : Option Digits :=
  match part, c with
  | .sign, c => if c == '0' then some .zero else if c.isDigit then some .whole else none
  | .zero, '.' | .whole, '.' => some .point
  | .zero, 'e' | .zero, 'E' | .whole, 'e' | .whole, 'E' | .fraction, 'e' | .fraction, 'E' =>
    some .letter
  | .letter, '+' | .letter, '-' => some .exponentSign
  | .whole, c => if c.isDigit then some .whole else none
  | .point, c | .fraction, c => if c.isDigit then some .fraction else none
  | .letter, c | .exponentSign, c | .exponent, c => if c.isDigit then some .exponent else none
  | _, _ => none

/-- A number that the next character does not continue is complete; a zero is not continued by a
digit, but does not end before one either. -/
def Place.settle (p : Place) (c : Option Char) : Place :=
  match p with
  | .number part =>
    if part.complete && (c.bind part.next?).isNone &&
        !(part == .zero && (c.map Char.isDigit).getD false) then .after
    else p
  | .word [] => .after
  | _ => p

/-- What is wrong if the text ends here. -/
def Place.endFault : Place → Fault
  | .number _ => .malformed
  | _ => .truncated

/-- The place that a character leads to where a value is due. -/
def beginValue (open_ : List Frame) (c : Char) : Except Fault (Place × List Frame) :=
  if isBlank c then .ok (.value, open_)
  else if c == 'n' then .ok (.word "ull".toList, open_)
  else if c == 't' then .ok (.word "rue".toList, open_)
  else if c == 'f' then .ok (.word "alse".toList, open_)
  else if c == '-' then .ok (.number .sign, open_)
  else if c == '0' then .ok (.number .zero, open_)
  else if c.isDigit then .ok (.number .whole, open_)
  else if c == '"' then .ok (.text false, open_)
  else if c == '[' then .ok (.opened, .list :: open_)
  else if c == '\x7b' then .ok (.opened, .object :: open_)
  else .error .malformed

/-- The place that a character leads to where a key is due. -/
def beginKey (open_ : List Frame) (c : Char) : Except Fault (Place × List Frame) :=
  if isBlank c then .ok (.key, open_)
  else if c == '"' then .ok (.text true, open_)
  else .error .malformed

/-- The end of an item: what comes next inside the innermost bracket. -/
def afterItem (open_ : List Frame) (c : Char) : Except Fault (Place × List Frame) :=
  if isBlank c then .ok (.after, open_)
  else
    match open_, c with
    | .list :: _, ',' => .ok (.value, open_)
    | .object :: _, ',' => .ok (.key, open_)
    | .list :: outer, ']' => .ok (.after, outer)
    | .object :: outer, '\x7d' => .ok (.after, outer)
    | _, _ => .error .malformed

/-- The start of a bracket: its first item or its end. -/
def firstItem (open_ : List Frame) (c : Char) : Except Fault (Place × List Frame) :=
  if isBlank c then .ok (.opened, open_)
  else
    match open_, c with
    | .list :: outer, ']' => .ok (.after, outer)
    | .object :: outer, '\x7d' => .ok (.after, outer)
    | .object :: _, _ => beginKey open_ c
    | _, _ => beginValue open_ c

/-- One character inside a string. -/
def insideText (key : Bool) (open_ : List Frame) (c : Char) :
    Except Fault (Place × List Frame) :=
  if c == '"' then .ok (if key then .colon else .after, open_)
  else if c == '\\' then .ok (.escape key, open_)
  else if c.toNat < 0x20 then .error .malformed
  else .ok (.text key, open_)

/-- One character after a backslash, `s` being what follows it. -/
def insideEscape (key : Bool) (open_ : List Frame) (c : Char) (s : List Char) :
    Except Fault (Place × List Frame) :=
  if c == 'u' then
    if hasFourBytes s then .ok (.hex key 4, open_) else .error .truncated
  else if (escape? c).isSome then .ok (.text key, open_)
  else .error .malformed

/-- One character, `s` being what follows it. -/
def skipStep (p : Place) (open_ : List Frame) (c : Char) (s : List Char) :
    Except Fault (Place × List Frame) :=
  match p with
  | .value => beginValue open_ c
  | .opened => firstItem open_ c
  | .after => afterItem open_ c
  | .key => beginKey open_ c
  | .colon =>
    if isBlank c then .ok (.colon, open_)
    else if c == ':' then .ok (.value, open_) else .error .malformed
  | .text key => insideText key open_ c
  | .escape key => insideEscape key open_ c s
  | .hex key left =>
    if (hexDigit? c).isNone then .error .malformed
    else .ok (if left ≤ 1 then .text key else .hex key (left - 1), open_)
  | .word (w :: ws) => if c = w then .ok (.word ws, open_) else .error .malformed
  | .word [] => afterItem open_ c
  | .number part =>
    match part.next? c with
    | some next => .ok (.number next, open_)
    | none => .error .malformed

/-- Passes over the rest of a value from the given place, with the given brackets open. -/
def skipFrom (p : Place) (open_ : List Frame) : List Char → Except Fault (List Char)
  | [] =>
    match p.settle none, open_ with
    | .after, [] => .ok []
    | p, _ => .error p.endFault
  | c :: s =>
    match p.settle (some c), open_ with
    | .after, [] => .ok (c :: s)
    | p, open_ =>
      match skipStep p open_ c s with
      | .error fault => .error fault
      | .ok (p, open_) => skipFrom p open_ s

/-- Passes over one value. -/
def skip (s : List Char) : Except Fault (List Char) := skipFrom .value [] s

theorem skip_after_nil (s : List Char) : skipFrom .after [] s = .ok s := by
  cases s <;> rfl

end Json

end RemoteFile
