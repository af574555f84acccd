import Av1Frames.Logarithm
import Av1Frames.Sequence
import Av1Frames.Tile.Info

namespace Av1Frames

open Checked

/-- The greatest width of a tile in luma samples. -/
def maxTileWidth : Nat := 4096

/-- The greatest area of a tile in luma samples. -/
def maxTileArea : Nat := 4096 * 2304

/-- How many superblocks a frame has in each direction, and whether they are the large ones. -/
structure SuperblockGrid where
  cols : Nat
  rows : Nat
  large : Bool
deriving DecidableEq, Repr, Inhabited

namespace SuperblockGrid

/-- How many 4 by 4 blocks cover `samples` luma samples, always an even number. -/
def blocks (samples : Nat) : Except Fault Nat := do
  unsigned (2 * ((← unsigned (samples + 7)) / 8))

/-- The side of a superblock in luma samples, as a power of two. -/
def sizeLog2 (g : SuperblockGrid) : Nat := if g.large then 7 else 6

/-- How many superblocks cover a number of 4 by 4 blocks. -/
def superblocks (large : Bool) (blocks : Nat) : Except Fault Nat := do
  if large then
    return (← unsigned (blocks + 31)) / 32
  else
    return (← unsigned (blocks + 15)) / 16

/-- The grid of a frame of the given size. -/
def ofSize (width height : Nat) (large : Bool) : Except Fault SuperblockGrid := do
  let miCols ← blocks width
  let miRows ← blocks height
  return { cols := ← superblocks large miCols, rows := ← superblocks large miRows, large }

/-- The grid of the greatest frames of a sequence. -/
def ofSequence (s : Sequence) : Except Fault SuperblockGrid := do
  let size ← s.codedResolution
  ofSize size.width size.height s.use128x128Superblock

/-- The greatest width of a tile in superblocks. -/
def maxTileWidthSb (g : SuperblockGrid) : Nat := maxTileWidth >>> g.sizeLog2

/-- The greatest area of a tile in superblocks. -/
def maxTileAreaSb (g : SuperblockGrid) : Nat := maxTileArea >>> (2 * g.sizeLog2)

/-- The least logarithm of a number of tile columns that keeps tiles narrow enough. -/
def minLog2TileCols (g : SuperblockGrid) : Except Fault Nat := tileLog2 g.maxTileWidthSb g.cols

/-- The greatest logarithm of a number of tile columns. -/
def maxLog2TileCols (g : SuperblockGrid) : Except Fault Nat :=
  tileLog2 1 (min g.cols maxTilesPerSide)

/-- The greatest logarithm of a number of tile rows. -/
def maxLog2TileRows (g : SuperblockGrid) : Except Fault Nat :=
  tileLog2 1 (min g.rows maxTilesPerSide)

/-- How many superblocks there are. -/
def area (g : SuperblockGrid) : Except Fault Nat := unsigned (g.rows * g.cols)

/-- The least logarithm of a number of tiles that keeps tiles narrow and small enough. -/
def minLog2Tiles (g : SuperblockGrid) : Except Fault Nat := do
  let cols ← g.minLog2TileCols
  let tiles ← tileLog2 g.maxTileAreaSb (← g.area)
  return max cols tiles

/-- The size of all tiles but the last, when at most `2 ^ log2` tiles of one size cover `sbs`
    superblocks. -/
def uniformTileSize (sbs log2 : Nat) : Except Fault Nat := do
  let sum ← unsigned (sbs + (← shiftLeft 1 log2))
  shiftRight (← unsigned ((sum : Int) - 1)) log2

/-- How many superblocks the greatest tile may have when explicit sizes are chosen: half of an even
    share if the frame has to be divided at all. -/
def explicitTileAreaSb (g : SuperblockGrid) : Except Fault Nat := do
  let least ← g.minLog2Tiles
  if 0 < least then
    shiftRight (← g.area) (← unsigned (least + 1))
  else
    g.area

/-- The greatest height of explicit tiles below columns of the given widths, each less one. -/
def maxExplicitHeight (g : SuperblockGrid) (widthsMinus1 : List Nat) : Except Fault Nat := do
  let widest := (widthsMinus1.map (· + 1)).foldl max 1
  return max ((← g.explicitTileAreaSb) / widest) 1

end SuperblockGrid

end Av1Frames
