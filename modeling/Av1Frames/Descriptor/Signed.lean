import Av1Frames.Bits.Reader
import Av1Frames.Descriptor.Fixed

namespace Av1Frames

open Checked

/-- The code word of `su(n)`. A negative number is moved up by `2 ^ n`; of what stays negative the
    magnitude is written. -/
def Descriptor.signed (n : Nat) (value : Int) : Outcome WriteError Bits := do
  if value < 0 then
    let moved ← Checked.signed (value + (← shiftLeftSigned 1 n))
    Descriptor.fixed n moved.natAbs
  else
    Descriptor.fixed n value.natAbs

/-- Reads `su(n)`: an `f(n)` whose highest bit counts negatively. There has to be one. -/
def Read.signed (n : Nat) : Read Int := do
  let value ← Read.fixed n
  if n = 0 then
    throw (.fault .overflow)
  let sign : Nat := 1 <<< (n - 1)
  if value.testBit (n - 1) then
    Checked.signed (value - (← Checked.signed (2 * sign)))
  else
    return value

/-- Writes `su(n)`; the result counts the bits. -/
def Write.signed (n : Nat) (value : Int) : Write Nat := codeWord (Descriptor.signed n value)

end Av1Frames
