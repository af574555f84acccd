import Av1Frames.Checked

namespace Av1Frames

/-- `get_relative_dist(a, b)`: how far `a` is displayed after `b`, when both are known modulo
    `2 ^ bits`. The difference keeps its low bits, and its highest kept bit counts negatively.
    Without order hints every distance is zero. -/
def relativeDistance (enabled : Bool) (bits : Nat) (a b : Int) : Except Fault Int := do
  if !enabled || bits = 0 then
    return 0
  let difference ← Checked.signed (a - b)
  let sign ← Checked.shiftLeftSigned 1 (bits - 1)
  let mask ← Checked.signed (sign - 1)
  let low := difference % (mask + 1)
  let high := difference / sign % 2 * sign
  Checked.signed (low - high)

end Av1Frames
