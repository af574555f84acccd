import Av1Frames.Encoder.Layout
import Av1Frames.FrameState.Coding
import Av1Frames.GlobalMotion.Syntax
import Av1Frames.LoopFilter.Syntax
import Av1Frames.Tile.Info.Syntax

namespace Av1Frames

/-- Why an encoder cannot go on. -/
inductive EncodeError where
  /-- There is no tiling as it is asked for. -/
  | layout (e : LayoutError)
  /-- The wanted state cannot be coded. -/
  | coding (e : CodingError)
  /-- The header cannot be written. -/
  | encoding (e : SyntaxError)
deriving DecidableEq, Repr

/-- The text shown for an encoder that cannot go on. -/
def EncodeError.message : EncodeError → String
  | layout e => invalidRequest e.reason
  | coding e => e.message
  | encoding e => e.message

namespace Header

/-- The bits of the loop filter part. -/
def loopFilterBits (h : Header) (s : Sequence) : Encoding Bits :=
  h.loopFilter.bits s.color.monochrome

/-- The bits of the tile info. -/
def tileInfoBits (h : Header) (s : Sequence) : Encoding Bits := do
  h.tileInfo.bits (← SuperblockGrid.ofSize h.frameWidth h.frameHeight s.use128x128Superblock)

/-- The bits of the warps, which only frames predicted from others have. -/
def warpBits (h : Header) : Encoding Bits :=
  if h.isIntra then return [] else h.warps.bits h.allowHighPrecisionMv

end Header

/-- The parts of a frame header that depend on inherited state, each up to the end of a byte. -/
structure CodedFrameState where
  loopFilter : Bytes
  tileInfo : Bytes
  warps : Bytes
deriving DecidableEq, Repr

/-- Writes the parts of a header that depend on inherited state. -/
def CodedFrameState.ofHeader (s : Sequence) (h : Header) : Encoding CodedFrameState := do
  return {
    loopFilter := Bits.toBytes (← h.loopFilterBits s)
    tileInfo := Bits.toBytes (← h.tileInfoBits s)
    warps := Bits.toBytes (← h.warpBits) }

namespace StateSlots

/-- The slots after a frame with the given header and state is decoded. -/
def update (slots : StateSlots) (h : Header) (state : FrameState) : StateSlots :=
  slots.refresh h.refreshMask state

/-- Codes a frame and decodes it again: the written parts of its header, the state resolved from
    them, and the slots after it. -/
def encode (slots : StateSlots) (s : Sequence) (h : Header) (target : FrameState) :
    Outcome (EncodeError ⊕ StateError) (CodedFrameState × FrameState × StateSlots) := do
  let coded ← (FrameState.code slots h target).mapError (.inl ∘ .coding)
  let written ← (CodedFrameState.ofHeader s coded).mapError (.inl ∘ .encoding)
  let state ← (FrameState.derive s coded slots).mapError .inr
  return (written, state, update slots coded state)

end StateSlots

end Av1Frames
