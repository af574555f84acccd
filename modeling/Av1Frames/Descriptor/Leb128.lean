import Av1Frames.Bits.Reader
import Av1Frames.Descriptor.Fixed

namespace Av1Frames.Descriptor

/-- The last byte of a number. -/
def finalGroup (value : Nat) : UInt8 := UInt8.ofNat (value % 128)

/-- The lowest byte of a number that goes on. -/
def continuedGroup (value : Nat) : UInt8 := UInt8.ofNat (128 + value % 128)

/-- At most `most` bytes for `value`, and at least `least` unless `most` is smaller: a short number
    is continued with zero groups. Each byte has seven bits of the number, the least significant
    ones first, and a high bit that says whether another one follows. -/
def leb128Groups : (most least value : Nat) → Bytes
  | 0, _, _ => []
  | most + 1, least, value =>
    if 127 < value ∨ 1 < least then
      continuedGroup value :: leb128Groups most (least - 1) (value / 128)
    else
      [finalGroup value]

/-- The bytes of `leb128()` for `value`, padded to `least` bytes. Eight bytes are the most there can
    be, and eight padded ones leave the last byte marked as continued if `least` asks for more. -/
def leb128 (value least : Nat) : Bytes := leb128Groups 8 least value

end Av1Frames.Descriptor

namespace Av1Frames

namespace Read

/-- Reads up to `most` groups of seven bits. -/
def leb128Groups : (most : Nat) → Read Nat
  | 0 => return 0
  | most + 1 => do
    let byte ← aligned 8
    if byte < 128 then
      return byte
    else
      return byte % 128 + 128 * (← leb128Groups most)

/-- Reads `leb128()`, which starts at a byte. Numbers of more than 32 bits are refused after their
    bytes are consumed. -/
def leb128 : Read Nat := do
  let value ← leb128Groups 8
  if value < 0x100000000 then return value else fail .conversion

end Read

namespace Write

/-- Writes `leb128()` at the start of a byte; the result counts the bytes. -/
def leb128 (value least : Nat) : Write Nat := do
  if !(← get).aligned then
    fail .unalignedLeb128
  let word := Descriptor.leb128 value least
  bits (Bits.ofBytes word)
  return word.length

end Write

end Av1Frames
