import Av1Frames.Bits.Reader
import Av1Frames.Descriptor.Signed
import Av1Frames.LoopFilter
import Av1Frames.SyntaxError

namespace Av1Frames

namespace CodedDelta

/-- How many bits a delta has. -/
def width : Nat := 7

/-- The bits of a delta: a flag, and the value if the flag is set. -/
def bits (d : CodedDelta) : Encoding Bits := do
  if d.update then
    return true :: (← Descriptor.signed width d.value)
  else
    return [false]

/-- The bits of deltas one after the other. -/
def listBits : List CodedDelta → Encoding Bits
  | [] => return []
  | d :: ds => return (← d.bits) ++ (← listBits ds)

/-- Reads a delta. -/
def read : Read CodedDelta := do
  if ← Read.bit then
    return { update := true, value := ← Read.signed width }
  else
    return {}

end CodedDelta

namespace LoopFilter

/-- Whether the levels of the chroma planes are given: there are planes, and luma is filtered. -/
def hasChromaLevels (monochrome : Bool) (vertical horizontal : Nat) : Bool :=
  !monochrome && (vertical ≠ 0 || horizontal ≠ 0)

/-- The bits of the levels. -/
def levelBits (lf : LoopFilter) (monochrome : Bool) : Encoding Bits := do
  let luma := (← Descriptor.fixed 6 lf.levels[0]) ++ (← Descriptor.fixed 6 lf.levels[1])
  if hasChromaLevels monochrome lf.levels[0] lf.levels[1] then
    return luma ++ (← Descriptor.fixed 6 lf.levels[2]) ++ (← Descriptor.fixed 6 lf.levels[3])
  else
    return luma

/-- The bits of the deltas: the flags that say whether there are any, then those of the references
    and those of the modes. -/
def deltaBits (lf : LoopFilter) : Encoding Bits := do
  if !lf.deltaEnabled then
    return [false]
  else if !lf.deltaUpdate then
    return [true, false]
  else
    return [true, true] ++ (← CodedDelta.listBits lf.refDeltas.toList) ++
      (← CodedDelta.listBits lf.modeDeltas.toList)

/-- The bits of the loop filter part of a header: `loop_filter_params()`. -/
def bits (lf : LoopFilter) (monochrome : Bool) : Encoding Bits := do
  return (← lf.levelBits monochrome) ++ (← Descriptor.fixed 3 lf.sharpness) ++ (← lf.deltaBits)

/-- Reads the levels. Those that are not given are zero. -/
def readLevels (monochrome : Bool) : Read (Vector Nat 4) := do
  let vertical ← Read.fixed 6
  let horizontal ← Read.fixed 6
  if hasChromaLevels monochrome vertical horizontal then
    let u ← Read.fixed 6
    let v ← Read.fixed 6
    return #v[vertical, horizontal, u, v]
  else
    return #v[vertical, horizontal, 0, 0]

/-- Reads the loop filter part of a header. Values that are not given are zero. -/
def read (monochrome : Bool) : Read LoopFilter := do
  let levels ← readLevels monochrome
  let sharpness ← Read.fixed 3
  let deltaEnabled ← Read.bit
  let deltaUpdate ← if deltaEnabled then Read.bit else pure false
  if deltaUpdate then
    let refDeltas ← Vector.ofFnM fun _ => CodedDelta.read
    let modeDeltas ← Vector.ofFnM fun _ => CodedDelta.read
    return { levels, sharpness, deltaEnabled, deltaUpdate, refDeltas, modeDeltas }
  else
    return { levels, sharpness, deltaEnabled, deltaUpdate }

end LoopFilter

end Av1Frames
