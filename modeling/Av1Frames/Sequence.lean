import Av1Frames.Checked
import Av1Frames.Logarithm
import Av1Frames.Obu
import Av1Frames.PixelFormat

namespace Av1Frames

/-- The profiles that are not reserved. -/
inductive Profile where
  | profile0
  | profile1
  | profile2
deriving DecidableEq, Repr, Inhabited

/-- The profile with a given number. -/
def Profile.ofNumber? : Int → Option Profile
  | 0 => some .profile0
  | 1 => some .profile1
  | 2 => some .profile2
  | _ => none

/-- A choice of layers that can be decoded on its own. -/
structure OperatingPoint where
  seqLevelIdx : Nat := 0
  seqTier : Nat := 0
  /-- A set of layers: the low eight bits stand for temporal layers, the ones above for spatial
      layers. Zero selects everything. -/
  idc : Nat := 0
deriving DecidableEq, Repr, Inhabited

/-- How colours are sampled. -/
structure ColorConfig where
  highBitDepth : Bool := false
  twelveBit : Bool := false
  monochrome : Bool := false
  subsamplingX : Bool := false
  subsamplingY : Bool := false
deriving DecidableEq, Repr, Inhabited

/-- The syntax elements of a sequence header that frames depend on. -/
structure Sequence where
  obuHeader : ObuHeader := {}
  /-- The number of the profile as transmitted. -/
  seqProfile : Nat := 0
  stillPicture : Bool := false
  reducedStillPictureHeader : Bool := false
  maxFrameWidthMinus1 : Nat := 0
  maxFrameHeightMinus1 : Nat := 0
  /-- Whether superblocks have 128 luma samples on a side instead of 64. -/
  use128x128Superblock : Bool := false
  enableWarpedMotion : Bool := false
  enableOrderHint : Bool := false
  /-- How many bits order hints have. -/
  orderHintBits : Nat := 0
  filmGrainParamsPresent : Bool := false
  operatingPointsCntMinus1 : Nat := 0
  operatingPoints : Vector OperatingPoint 32 := Vector.replicate 32 {}
  color : ColorConfig := {}
deriving DecidableEq, Repr, Inhabited

/-- Why a sequence has no pixel format. -/
inductive FormatError where
  | profile (number : Nat)
  | subsampling (x y monochrome : Bool)
deriving DecidableEq, Repr

/-- The text shown for a sequence without a pixel format. -/
def FormatError.message : FormatError → String
  | profile number => s!"Unsupported profile {number}"
  | subsampling x y monochrome =>
    s!"Unsupported subsampling {x.toNat}x{y.toNat} (mono_chrome: {monochrome})"

namespace Sequence

/-- The profile of the sequence, unless its number is reserved. -/
def profile? (s : Sequence) : Option Profile := Profile.ofNumber? s.seqProfile

/-- The bits of a sample: twelve only in the professional profile. -/
def sampleBits (profile : Profile) (color : ColorConfig) : Nat :=
  match profile, color.highBitDepth, color.twelveBit with
  | .profile2, true, true => 12
  | _, true, _ => 10
  | _, false, _ => 8

/-- The pixel format of the frames of the sequence. -/
def pixelFormat (s : Sequence) : Except FormatError PixelFormat :=
  match s.profile? with
  | none => .error (.profile s.seqProfile)
  | some profile =>
    let color := s.color
    match color.monochrome, color.subsamplingX, color.subsamplingY, sampleBits profile color with
    | true, true, true, 8 => .ok .gray8
    | true, true, true, 10 => .ok .gray10
    | true, true, true, 12 => .ok .gray12
    | false, true, true, 8 => .ok .i420
    | false, true, true, 10 => .ok .i010
    | false, true, true, 12 => .ok .i012
    | false, true, false, 8 => .ok .i422
    | false, true, false, 10 => .ok .i210
    | false, true, false, 12 => .ok .i212
    | false, false, false, 8 => .ok .i444
    | false, false, false, 10 => .ok .i410
    | false, false, false, 12 => .ok .i412
    | monochrome, x, y, _ => .error (.subsampling x y monochrome)

/-- The operating point that a choice selects; a choice beyond the last one selects the last one. -/
def selectedPoint (s : Sequence) (choice : Nat) : OperatingPoint :=
  s.operatingPoints[min (min choice s.operatingPointsCntMinus1) 31]

/-- The greatest frame size of the sequence. -/
def codedResolution (s : Sequence) : Except Fault Resolution := do
  return {
    width := ← Checked.unsigned (s.maxFrameWidthMinus1 + 1)
    height := ← Checked.unsigned (s.maxFrameHeightMinus1 + 1) }

end Sequence

namespace OperatingPoint

/-- The highest spatial layer that the operating point selects, if it selects any by number. -/
def highestSpatialLayer? (p : OperatingPoint) : Except Fault (Option Nat) :=
  let layers := p.idc >>> 8
  if layers = 0 then return none else some <$> floorLog2 layers

/-- Whether units with the given header are part of the operating point. Sequence headers and
    temporal delimiters always are, as is everything that names no layer. -/
def includes (p : OperatingPoint) (h : ObuHeader) : Except Fault Bool := do
  if p.idc = 0 || !h.extensionFlag || h.obuType = .sequenceHeader ||
      h.obuType = .temporalDelimiter then
    return true
  let spatialBit ← Checked.unsigned (h.spatialId + 8)
  return p.idc.testBit h.temporalId && p.idc.testBit spatialBit

end OperatingPoint

end Av1Frames
