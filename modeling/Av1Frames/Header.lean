import Av1Frames.FilmGrain
import Av1Frames.GlobalMotion
import Av1Frames.LoopFilter
import Av1Frames.Obu
import Av1Frames.Reference
import Av1Frames.Tile.Info

namespace Av1Frames

/-- The types of frames. -/
inductive FrameType where
  | keyFrame
  | interFrame
  | intraOnlyFrame
  | switchFrame
deriving DecidableEq, Repr, Inhabited

/-- The frame type with a given number. -/
def FrameType.ofNumber? : Int → Option FrameType
  | 0 => some .keyFrame
  | 1 => some .interFrame
  | 2 => some .intraOnlyFrame
  | 3 => some .switchFrame
  | _ => none

/-- The number that stands for the absence of a primary reference. -/
def primaryRefNone : Nat := 7

/-- A frame header. -/
structure Header where
  obuHeader : ObuHeader := {}
  /-- Whether the frame in slot `frameToShowMapIdx` is shown, and nothing decoded. -/
  showExistingFrame : Bool := false
  frameToShowMapIdx : Nat := 0
  frameType : FrameType := .keyFrame
  showFrame : Bool := false
  showableFrame : Bool := false
  errorResilientMode : Bool := false
  /-- Which entry of `refFrameIdx` gives the frame whose state is inherited, or `primaryRefNone`. -/
  primaryRefFrame : Nat := 0
  /-- The slots that the frame is put into once it is decoded, one bit each. -/
  refreshFrameFlags : Nat := 0
  /-- The slots of the references, from the first after the frame itself. -/
  refFrameIdx : Vector Nat 7 := Vector.replicate 7 0
  orderHint : Nat := 0
  allowHighPrecisionMv : Bool := false
  referenceSelect : Bool := false
  skipModePresent : Bool := false
  frameWidth : Nat := 0
  frameHeight : Nat := 0
  upscaledWidth : Nat := 0
  renderWidth : Nat := 0
  renderHeight : Nat := 0
  loopFilter : LoopFilter := {}
  tileInfo : TileInfo := {}
  warps : CodedWarps := Vector.replicate 8 {}
  filmGrain : FilmGrain := {}
deriving DecidableEq, Repr, Inhabited

namespace Header

/-- Whether the frame is predicted from itself alone. -/
def isIntra (h : Header) : Bool := h.frameType = .keyFrame || h.frameType = .intraOnlyFrame

/-- The slots that the frame is put into: all of them for a key frame. -/
def refreshMask (h : Header) : Nat :=
  if h.frameType = .keyFrame then allSlots else h.refreshFrameFlags

end Header

end Av1Frames
