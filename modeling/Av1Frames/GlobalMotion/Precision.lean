import Av1Frames.GlobalMotion
import Av1Frames.Recentering

namespace Av1Frames

open Checked

/-- The precision of one transmitted warp parameter. -/
structure WarpPrecision where
  /-- How many bits the magnitude has; transmitted numbers lie between minus and plus two to this
      power. -/
  absBits : Nat
  /-- How many fractional bits are transmitted. -/
  precBits : Nat
  /-- Whether the parameter is on the diagonal, so that it is transmitted less one. -/
  diagonal : Bool
deriving DecidableEq, Repr

namespace WarpPrecision

/-- The precision of parameter `i`. Offsets of mere translations are coarser, and lose a bit where
    motion vectors do. -/
def of (model : WarpModel) (i : Fin 6) (highPrecision : Bool) : WarpPrecision :=
  let diagonal := i.val % 3 = 2
  if i.val < 2 then
    if model = .translation then
      let less := if highPrecision then 0 else 1
      { absBits := 9 - less, precBits := 3 - less, diagonal }
    else
      { absBits := 12, precBits := 6, diagonal }
  else
    { absBits := 12, precBits := 15, diagonal }

variable (p : WarpPrecision)

/-- The greatest number that is transmitted. -/
def mx : Int := 1 <<< p.absBits

/-- How many symbols a code of the parameter has: one for each number from `-mx` to `mx`. -/
def symbols : Int := 2 * p.mx + 1

/-- How many fractional bits are not transmitted, of the sixteen that there are. -/
def droppedBits : Nat := 16 - p.precBits

/-- What a parameter that is transmitted as zero stands for. -/
def round : Int := if p.diagonal then 0x10000 else 0

/-- A parameter of `round` in transmitted units. -/
def sub : Int := if p.diagonal then 1 <<< p.precBits else 0

/-- The number that a code is relative to, for a previous value of the parameter. -/
def reference (previous : Int) : Except Fault Int := signed (previous >>> p.droppedBits - p.sub)

/-- The parameter that a transmitted number stands for. -/
def scale (number : Int) : Except Fault Int :=
  signed (wrapSigned (number <<< p.droppedBits) + p.round)

/-- The parameter that `code` stands for, for a previous value of it. -/
def decode (code previous : Int) : Except Fault Int := do
  p.scale (← Recentering.decodeSigned code (-p.mx) (p.mx + 1) (← p.reference previous))

end WarpPrecision

end Av1Frames
