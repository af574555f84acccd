import Av1Frames.Logarithm
import Av1Frames.Bits.Reader
import Av1Frames.Descriptor.Fixed

namespace Av1Frames

open Checked

/-- The length `w` of the long code words of `ns(n)`, and how many numbers have a short one. The
    count is `2 ^ w - n`, taken in 32 bits. -/
def Descriptor.nonSymmetricShape (n : Nat) : Except Fault (Nat × Nat) := do
  let w := (← floorLog2 n) + 1
  let short ← unsigned ((← shiftLeft 1 w) - n)
  return (w, short)

/-- The code word of `ns(n)`: a number below `n`, in one bit less when it is small. -/
def Descriptor.nonSymmetric (n value : Nat) : Outcome WriteError Bits := do
  if n ≤ value then
    .fail (.nonSymmetricRange n value)
  else
    let (w, short) ← Descriptor.nonSymmetricShape n
    if value < short then
      Descriptor.fixed (w - 1) value
    else
      let beyond := value - short
      return (← Descriptor.fixed (w - 1) (short + beyond / 2)) ++
        (← Descriptor.fixed 1 (beyond % 2))

/-- Reads `ns(n)`. The doubled prefix of a long code word is at least the count of short ones, so
    nothing is cut off below zero. -/
def Read.nonSymmetric (n : Nat) : Read Nat := do
  let (w, short) ← Descriptor.nonSymmetricShape n
  let value ← Read.fixed (w - 1)
  if value < short then
    return value
  else
    let last ← Read.bit
    return 2 * value - short + last.toNat

/-- Writes `ns(n)`; the result counts the bits. -/
def Write.nonSymmetric (n value : Nat) : Write Nat := codeWord (Descriptor.nonSymmetric n value)

end Av1Frames
