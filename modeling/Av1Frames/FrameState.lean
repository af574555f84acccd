import Av1Frames.FilmGrain
import Av1Frames.GlobalMotion
import Av1Frames.LoopFilter
import Av1Frames.Reference

namespace Av1Frames

/-- What a decoded frame leaves to the frames that refer to it. The initial value is the one that
    frames without references start from. -/
structure FrameState where
  deltaEnabled : Bool := true
  deltas : FilterDeltas := {}
  /-- The warp of each reference; the one of the frame itself moves nothing. -/
  warps : Warps := Vector.replicate 8 {}
  orderHint : Nat := 0
  /-- The order hint of each reference. -/
  orderHints : Vector Nat 8 := Vector.replicate 8 0
  /-- Which references are displayed after the frame. -/
  signBias : Vector Bool 8 := Vector.replicate 8 false
  /-- The two references of skip mode, if it can be used. -/
  skipModeFrames : Option (RefName × RefName) := none
  /-- The film grain to be applied to the output. -/
  filmGrain : FilmGrain := {}
deriving DecidableEq, Repr, Inhabited

/-- Why a frame has no state to inherit. -/
inductive PrimaryError where
  /-- The primary reference is none of the seven references. -/
  | range (primary : Nat)
  /-- The slot of the primary reference is empty. -/
  | empty (primary slot : Nat)
deriving DecidableEq, Repr

/-- Why the state of a frame cannot be resolved. -/
inductive StateError where
  | primary (e : PrimaryError)
  /-- The slot that film grain is taken from is empty. -/
  | grainEmpty (slot : Nat)
deriving DecidableEq, Repr

/-- The text shown for a frame whose state cannot be resolved. -/
def StateError.message : StateError → String
  | primary (.range n) => s!"Invalid primary_ref_frame {n}"
  | primary (.empty n slot) => s!"Primary reference frame {n} points to empty slot {slot}"
  | grainEmpty slot => s!"Film grain parameters reference empty slot {slot}"

end Av1Frames
