import Av1Frames.Sequence

namespace Av1Frames

/-- The frame size and the tiling that an encoder is asked for. The initial value asks for one tile
    of a small frame. -/
structure EncoderConfig where
  resolution : Resolution := { width := 320, height := 240 }
  use128x128Superblock : Bool := false
  /-- The number of tile columns; zero asks for as few as possible. -/
  tileCols : Nat := 1
  /-- The number of tile rows; zero asks for as few as possible. -/
  tileRows : Nat := 1
  /-- Whether uniform spacing is used where it gives the numbers of tiles asked for. -/
  uniformSpacing : Bool := true
  /-- How many bytes the size field of a tile has, one to four. -/
  tileSizeBytes : Nat := 4
deriving DecidableEq, Repr, Inhabited

/-- The sequence header of the encoded stream: eight bits a sample, chroma at half resolution, and
    no frame greater than the one asked for. -/
def EncoderConfig.sequence (c : EncoderConfig) : Sequence := {
  obuHeader := .sized .sequenceHeader
  enableOrderHint := true
  orderHintBits := 8
  maxFrameWidthMinus1 := c.resolution.width - 1
  maxFrameHeightMinus1 := c.resolution.height - 1
  use128x128Superblock := c.use128x128Superblock
  operatingPoints := (Vector.replicate 32 {}).set 0 { seqLevelIdx := 23 }
  color := { subsamplingX := true, subsamplingY := true } }

end Av1Frames
