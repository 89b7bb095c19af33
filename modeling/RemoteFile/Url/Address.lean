import RemoteFile.Url.Percent

/-!
# Internet addresses in URLs

Hosts that are addresses: four-byte ones in decimal, octal or hexadecimal parts, the last of which
may stand for several bytes, and sixteen-byte ones in eight pieces, of which one run of zeros may be
left out. Both are written in one canonical form.
-/

namespace RemoteFile

namespace Url

/-- The parts of a text between separators. -/
def splitOn (sep : Char) (s : List Char) : List (List Char) :=
  s.foldr (fun c parts =>
    if c == sep then [] :: parts
    else
      match parts with
      | [] => [[c]]
      | p :: ps => (c :: p) :: ps) [[]]

/-- The value of digits in some base; none if one of them is not a digit of it. -/
def digitsIn (base : Nat) (s : List Char) : Option Nat :=
  s.foldl (fun n c => do
    let n ← n
    let d ← hexDigit? c
    if d < base then some (n * base + d) else none) (some 0)

/-- A part of a four-byte address: hexadecimal after `0x`, octal after `0`, else decimal. -/
def addressPart? (s : List Char) : Option Nat :=
  match s with
  | [] => none
  | '0' :: 'x' :: r | '0' :: 'X' :: r => digitsIn 16 r
  | '0' :: c :: r => digitsIn 8 (c :: r)
  | _ => digitsIn 10 s

/-- The parts between dots, without an empty one at the end. -/
def dottedParts (s : List Char) : List (List Char) :=
  let parts := splitOn '.' s
  if 1 < parts.length && parts.getLast? == some [] then parts.dropLast else parts

/-- The last part of a host is a number: the host has to be an address. -/
def endsInNumber (s : List Char) : Bool :=
  match (dottedParts s).getLast? with
  | none => false
  | some last => (!last.isEmpty && last.all Char.isDigit) || (addressPart? last).isSome

/-- A four-byte address. -/
def address4? (s : List Char) : Option Nat := do
  let parts := dottedParts s
  if 4 < parts.length then none
  let numbers ← parts.mapM addressPart?
  let last ← numbers.getLast?
  let front := numbers.dropLast
  let room := Nat.pow 256 (4 - front.length)
  if room ≤ last then none
  if front.any (255 < ·) then none
  some (front.foldl (fun n b => n * 256 + b) 0 * room + last)

/-- A four-byte address in decimal bytes. -/
def showAddress4 (n : Nat) : String :=
  String.intercalate "." ([16777216, 65536, 256, 1].map fun unit => toString (n / unit % 256))

/-- A decimal byte without leading zeros. -/
def byte? (s : List Char) : Option Nat :=
  match s with
  | [] => none
  | ['0'] => some 0
  | '0' :: _ => none
  | _ => (digitsIn 10 s).bind fun n => if n < 256 then some n else none

/-- The two pieces that a four-byte address stands for at the end of a sixteen-byte one. -/
def tailPieces? (s : List Char) : Option (List Nat) :=
  match (splitOn '.' s).mapM byte? with
  | some [a, b, c, d] => some [a * 256 + b, c * 256 + d]
  | _ => none

/-- Reads the pieces of a sixteen-byte address, `pieces` having been read before and a run of zeros
left out after the first `gap` of them. -/
def pieces? : Nat → List Nat → Option Nat → List Char → Option (List Nat × Option Nat)
  | 0, pieces, gap, s => if s.isEmpty then some (pieces, gap) else none
  | room + 1, pieces, gap, s =>
    match s with
    | [] => some (pieces, gap)
    | ':' :: r =>
      if gap.isSome then none else pieces? room (pieces ++ [0]) (some (pieces.length + 1)) r
    | _ =>
      let digits := (s.take 4).takeWhile fun c => (hexDigit? c).isSome
      let value := (digitsIn 16 digits).getD 0
      match s.drop digits.length with
      | [] => some (pieces ++ [value], gap)
      | ':' :: r => if r.isEmpty then none else pieces? room (pieces ++ [value]) gap r
      | '.' :: _ =>
        if digits.isEmpty || room == 0 then none
        else (tailPieces? s).map fun tail => (pieces ++ tail, gap)
      | _ => none

/-- A sixteen-byte address as its eight pieces. -/
def address6? (s : List Char) : Option (List Nat) := do
  let (pieces, gap) ←
    match s with
    | ':' :: ':' :: r => pieces? 7 [0] (some 1) r
    | ':' :: _ => none
    | [_] | [] => none
    | _ => pieces? 8 [] none s
  match gap with
  | some gap =>
    some (pieces.take gap ++ List.replicate (8 - pieces.length) 0 ++ pieces.drop gap)
  | none => if pieces.length == 8 then some pieces else none

/-- The runs of zero pieces as their starts and lengths, the last one first. -/
def zeroRuns (pieces : List Nat) : List (Nat × Nat) :=
  pieces.zipIdx.foldl (fun runs p =>
    if p.1 != 0 then runs
    else
      match runs with
      | (start, len) :: rest =>
        if start + len == p.2 then (start, len + 1) :: rest else (p.2, 1) :: runs
      | [] => [(p.2, 1)]) []

/-- The first of the longest runs of at least two zeros. -/
def longestRun (pieces : List Nat) : Option (Nat × Nat) :=
  (zeroRuns pieces).foldl (fun best run =>
    match best with
    | none => if 2 ≤ run.2 then some run else none
    | some b => if b.2 ≤ run.2 then some run else some b) none

/-- Pieces between colons. -/
def showPieces (pieces : List Nat) : String :=
  String.intercalate ":" (pieces.map fun p => String.ofList (Nat.toDigits 16 p))

/-- A sixteen-byte address with the longest run of zeros left out. -/
def showAddress6 (pieces : List Nat) : String :=
  match longestRun pieces with
  | none => showPieces pieces
  | some (start, len) =>
    showPieces (pieces.take start) ++ "::" ++ showPieces (pieces.drop (start + len))

end Url

end RemoteFile
