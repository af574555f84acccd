import Av1Frames.Checked
import Av1Frames.Bits

namespace Av1Frames

/-- Why a read fails. -/
inductive ReadError where
  /-- More bits were asked for at once than a read delivers. -/
  | tooManyBits (n : Nat)
  /-- Fewer bits are left than were asked for. -/
  | outOfBits
  /-- A read of whole bytes began inside a byte. -/
  | unaligned (n : Nat)
  /-- The value does not fit where the caller wants to keep it. -/
  | conversion
deriving DecidableEq, Repr

/-- The text shown for a failed read. -/
def ReadError.message : ReadError → String
  | tooManyBits n => s!"more than 31 ({n}) bits were requested"
  | outOfBits => "reader ran out of bits"
  | unaligned n => s!"attempted an unaligned read of {n} bits"
  | conversion => "failed to convert read input to target type"

/-- A bit string being read. -/
structure Reader where
  /-- The bits that are still to be read. -/
  rest : Bits
  /-- How many bits have been read. -/
  position : Nat := 0
deriving DecidableEq, Repr

namespace Reader

/-- A reader at the start of `bytes`. -/
def ofBytes (bytes : Bytes) : Reader := { rest := Bits.ofBytes bytes }

/-- How many bits are left. -/
def left (r : Reader) : Nat := r.rest.length

/-- The reader after `n` more bits. -/
def skip (r : Reader) (n : Nat) : Reader := { rest := r.rest.drop n, position := r.position + n }

end Reader

/-- A computation that reads bits. The reader outlives its failures. -/
abbrev Read := ExceptT (Failure ReadError) (StateM Reader)

namespace Read

/-- Stops with an error of reading. -/
def fail {α : Type} (e : ReadError) : Read α := throw (.error e)

/-- Reads one bit. -/
def bit : Read Bool := do
  let r ← get
  match r.rest with
  | [] => fail .outOfBits
  | b :: _ =>
    set (r.skip 1)
    return b

/-- Reads the descriptor `f(n)`, an unsigned number of `n` bits. Nothing is consumed unless all of
    them are there. -/
def fixed (n : Nat) : Read Nat := do
  let r ← get
  if 31 < n then
    fail (.tooManyBits n)
  else if r.left < n then
    fail .outOfBits
  else
    set (r.skip n)
    return Bits.toNat (r.rest.take n)

/-- Reads `f(n)` for a caller that keeps numbers up to `greatest`. A number above it is refused
    after its bits are consumed. -/
def fixedUpTo (greatest n : Nat) : Read Nat := do
  let v ← fixed n
  if v ≤ greatest then return v else fail .conversion

/-- Fails unless the next read of `n` bits starts at a byte. -/
def requireAligned (n : Nat) : Read Unit := do
  let r ← get
  if r.position % 8 ≠ 0 then fail (.unaligned n)

/-- Reads `f(n)` at the start of a byte only. -/
def aligned (n : Nat) : Read Nat := do
  requireAligned n
  fixed n

/-- Reads `f(n)` as `fixedUpTo` does, at the start of a byte only. -/
def alignedUpTo (greatest n : Nat) : Read Nat := do
  requireAligned n
  fixedUpTo greatest n

/-- Reads `n` bits one by one and forgets them. -/
def skip : Nat → Read Unit
  | 0 => return
  | n + 1 => do
    let _ ← bit
    skip n

/-- Reads up to the start of the next byte. -/
def align : Read Unit := do
  let r ← get
  skip ((8 - r.position % 8) % 8)

/-- What a computation reads from the start of `bytes`, without the reader that is left. -/
def ofBytes {α : Type} (read : Read α) (bytes : Bytes) : Outcome ReadError α :=
  (read.run (Reader.ofBytes bytes)).1

end Read

end Av1Frames
