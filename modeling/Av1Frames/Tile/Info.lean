import Av1Frames.Checked

namespace Av1Frames

/-- The greatest number of tile columns, and of tile rows. -/
def maxTilesPerSide : Nat := 64

/-- The tile info of a frame header. -/
structure TileInfo where
  /-- Whether all tiles have the same size, except for those at the right and bottom edges. -/
  uniformSpacing : Bool := true
  colsLog2 : Nat := 0
  rowsLog2 : Nat := 0
  cols : Nat := 1
  rows : Nat := 1
  /-- The width of each tile column less one, in superblocks. -/
  widthInSbsMinus1 : Vector Nat 64 := Vector.replicate 64 0
  /-- The height of each tile row less one, in superblocks. -/
  heightInSbsMinus1 : Vector Nat 64 := Vector.replicate 64 0
  contextUpdateTileId : Nat := 0
  /-- How many bytes the size field of a tile has, less one. -/
  tileSizeBytesMinus1 : Nat := 3
deriving DecidableEq, Repr, Inhabited

namespace TileInfo

/-- How many tiles a frame has. -/
def tileCount (t : TileInfo) : Except Fault Nat := Checked.unsigned (t.cols * t.rows)

/-- How many bits a tile number has. -/
def tileNumberBits (t : TileInfo) : Except Fault Nat := Checked.unsigned (t.colsLog2 + t.rowsLog2)

/-- How many bytes the size field of a tile has. -/
def sizeFieldBytes (t : TileInfo) : Nat := t.tileSizeBytesMinus1 + 1

end TileInfo

end Av1Frames
