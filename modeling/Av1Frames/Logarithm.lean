import Av1Frames.Checked

namespace Av1Frames

/-- `FloorLog2(x)`: the position of the highest set bit of `x`, which has to be positive. -/
def floorLog2 (x : Nat) : Except Fault Nat :=
  if x = 0 then .error .domain else .ok x.log2

/-- `tile_log2(size, target)`: the least `k` for which `size`, doubled `k` times, reaches `target`.
    The doubled size is kept in 32 bits, so bits can be lost on the way up; no `k` of 32 or more is
    tried. -/
def tileLog2 (size target : Nat) : Except Fault Nat :=
  match (List.range 32).find? fun k => target ≤ (size <<< k) % 0x100000000 with
  | some k => .ok k
  | none => .error .shift

end Av1Frames
