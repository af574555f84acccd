import Av1Frames.Checked

namespace Av1Frames.Recentering

open Checked

/-- `inverse_recenter(r, v)`: the number with code `v` around the reference `r`. Numbers near the
    reference have small codes, which alternate between its two sides. -/
def inverseRecenter (r v : Int) : Except Fault Int := do
  if (← signed (2 * r)) < v then
    return v
  else if v % 2 ≠ 0 then
    signed (r - (← signed (v + 1)) / 2)
  else
    signed (r + v / 2)

/-- The code of `v` around the reference `r`. -/
def recenter (r v : Int) : Except Fault Int := do
  if (← signed (2 * r)) < v then
    return v
  else if r ≤ v then
    return wrapSigned (2 * (← signed (v - r)))
  else
    signed (wrapSigned (2 * (← signed (r - v))) - 1)

/-- The number of `0 .. mx - 1` that `code` stands for with the reference `r`. A reference in the
    upper half is counted from the upper end. -/
def decodeUnsigned (code mx r : Int) : Except Fault Int := do
  if wrapSigned (2 * r) ≤ mx then
    inverseRecenter r code
  else
    let top ← signed (mx - 1)
    signed (top - (← inverseRecenter (← signed (top - r)) code))

/-- The code of `x`, one of `0 .. mx - 1`, with the reference `r`. -/
def encodeUnsigned (x mx r : Int) : Except Fault Int := do
  if wrapSigned (2 * r) ≤ mx then
    recenter r x
  else
    let top ← signed (mx - 1)
    recenter (← signed (top - r)) (← signed (top - x))

/-- The number of `low .. high - 1` that `code` stands for with the reference `r`. -/
def decodeSigned (code low high r : Int) : Except Fault Int := do
  signed ((← decodeUnsigned code (← signed (high - low)) (← signed (r - low))) + low)

/-- The code of `x`, one of `low .. high - 1`, with the reference `r`. -/
def encodeSigned (x low high r : Int) : Except Fault Int := do
  encodeUnsigned (← signed (x - low)) (← signed (high - low)) (← signed (r - low))

end Av1Frames.Recentering
