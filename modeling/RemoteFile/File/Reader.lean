import RemoteFile.File.Read

/-!
# Sequential readers

A reader is a position in a file. Reading moves it past what was read, and a failure leaves it
where it is. It may stand past the end, where there is nothing to read.
-/

namespace RemoteFile

/-- What a new position is counted from. -/
inductive SeekFrom where
  /-- The start of the file. -/
  | start (position : Nat)
  /-- The end of the file. -/
  | stop (by_ : Int)
  /-- The current position. -/
  | current (by_ : Int)
deriving DecidableEq, Repr

namespace Reader

variable {τ : Type}

/-- The position at a distance from another one. -/
def displaced (base : Nat) (by_ : Int) : Except Failure Nat :=
  if 0 ≤ base + by_ ∧ base + by_ < (positionLimit : Nat) then .ok (base + by_).toNat
  else .error .negativeSeek

/-- The position that a reader is moved to in a file of the given size. -/
def seek (size position : Nat) : SeekFrom → Except Failure Nat
  | .start target => .ok target
  | .stop by_ => displaced size by_
  | .current by_ => displaced position by_

/-- The result of a read that needs no bytes of the object, or the read to make. At the end of the
file and past it there is nothing to read. -/
def read (size position len : Nat) : Except (Except Failure (List UInt8)) (FileRead τ) :=
  if size ≤ position then .error (.ok []) else .ok (FileRead.start position len)

/-- The same for a read of exactly `len` bytes. -/
def readExact (size position len : Nat) :
    Except (Except Failure (List UInt8)) (FileRead τ) :=
  if len = 0 then .error (.ok [])
  else if size < min (position + len) (positionLimit - 1) then
    .error (.error (.outOfRange position size))
  else read size position len

/-- What a buffer holds after a read into it: the bytes that were read, and behind them what it held
before. -/
def buffered (buffer bytes : List UInt8) : List UInt8 := bytes ++ buffer.drop bytes.length

/-- Where a reader stands after a read. -/
def moved (position : Nat) : Except Failure (List UInt8) → Nat
  | .ok bytes => position + bytes.length
  | .error _ => position

end Reader

end RemoteFile
