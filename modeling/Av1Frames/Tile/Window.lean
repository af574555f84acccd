import Av1Frames.Descriptor.Fixed
import Av1Frames.Header
import Av1Frames.Tile.Grid
import Av1Frames.Tile.Group

namespace Av1Frames

open Checked

/-- The greatest number of tiles in a group. -/
def maxTiles : Nat := 128

/-- A tile of a group. -/
structure Tile where
  /-- Where the tiles of the group start in the buffer. -/
  groupOffset : Nat
  /-- Where the payload of the tile starts, counted from `groupOffset`. -/
  offset : Nat
  /-- How many bytes the payload has. -/
  size : Nat
  row : Nat
  col : Nat
  /-- The width in superblocks. -/
  width : Nat
  /-- The height in superblocks. -/
  height : Nat
deriving DecidableEq, Repr, Inhabited

/-- The payload of a tile within the buffer of its group. -/
def Tile.payload (t : Tile) (data : Bytes) : Bytes :=
  (data.drop (t.groupOffset + t.offset)).take t.size

/-- The widths and heights that tiles can have in a frame. -/
structure TileSizes where
  tileInfo : TileInfo
  grid : SuperblockGrid
  /-- The width of uniform tiles. -/
  uniformWidth : Nat
  /-- The height of uniform tiles. -/
  uniformHeight : Nat
deriving DecidableEq, Repr

namespace TileSizes

/-- The tile sizes of frames with the given tile info. The grid is that of the greatest frames of
    the sequence. -/
def ofSequence (s : Sequence) (tileInfo : TileInfo) : Except Fault TileSizes := do
  let grid ← SuperblockGrid.ofSequence s
  return {
    tileInfo, grid
    uniformWidth := ← SuperblockGrid.uniformTileSize grid.cols tileInfo.colsLog2
    uniformHeight := ← SuperblockGrid.uniformTileSize grid.rows tileInfo.rowsLog2 }

/-- The size of uniform tile `i` of `count` across `sbs` superblocks: the last one takes what is
    left. -/
def uniform (sbs size count i : Nat) : Except Fault Nat := do
  if i = count - 1 then
    return sbs - (← unsigned (i * size))
  else
    return size

/-- The size of explicit tile `i`. -/
def explicit (sizes : Vector Nat 64) (i : Nat) : Except Fault Nat :=
  match sizes[i]? with
  | none => .error .domain
  | some minus1 => unsigned (minus1 + 1)

/-- The width and height of the tile in the given row and column. -/
def sizeAt (t : TileSizes) (row col : Nat) : Except Fault (Nat × Nat) := do
  if t.tileInfo.uniformSpacing then
    let width ← uniform t.grid.cols t.uniformWidth t.tileInfo.cols col
    let height ← uniform t.grid.rows t.uniformHeight t.tileInfo.rows row
    return (width, height)
  else
    let width ← explicit t.tileInfo.widthInSbsMinus1 col
    let height ← explicit t.tileInfo.heightInSbsMinus1 row
    return (width, height)

end TileSizes

/-- The size in a size field of `n` bytes at the start of `data`, less one. A field has one to eight
    bytes, all of them in `data`. -/
def readSizeField (data : Bytes) (n : Nat) : Except Fault Nat :=
  if 1 ≤ n ∧ n ≤ 8 ∧ n ≤ data.length then
    .ok (Descriptor.ofLittleEndianBytes (data.take n))
  else
    .error .domain

namespace TileGroup

/-- Where the payload of tile `number` starts, whose size field or payload is at `pos`, and how many
    bytes it has. The last tile has no size field and takes all that is left. -/
def locate (g : TileGroup) (sizeBytes : Nat) (data : Bytes) (number pos : Nat) :
    Outcome TileGroupError (Nat × Nat) := do
  let left ← difference data.length pos
  if number = g.last then
    return (pos, left)
  else if left < sizeBytes then
    .fail (.sizeField number sizeBytes left)
  else
    let minus1 ← readSizeField (data.drop pos) sizeBytes
    let start := pos + sizeBytes
    let left ← difference data.length start
    if left ≤ minus1 then
      .fail (.tileSize number (← Checked.size (minus1 + 1)) left)
    else
      return (start, minus1 + 1)

/-- The `n` tiles from number `number` on, of which the first one is at `pos`. -/
def tilesFrom (g : TileGroup) (sizes : TileSizes) (data : Bytes) :
    (n number pos : Nat) → Outcome TileGroupError (List Tile)
  | 0, _, _ => return []
  | n + 1, number, pos => do
    let row := number / sizes.tileInfo.cols
    let col := number % sizes.tileInfo.cols
    let (offset, size) ← g.locate sizes.tileInfo.sizeFieldBytes data number pos
    let (width, height) ← sizes.sizeAt row col
    let tile := { groupOffset := g.dataOffset, offset, size, row, col, width, height }
    return tile :: (← tilesFrom g sizes data n (number + 1) (offset + size))

/-- Whether a tile info divides a frame at all, into no more tiles than a side may have. The
    logarithms are held to that of `maxTilesPerSide`. -/
def validLayout (t : TileInfo) : Bool :=
  t.cols ≠ 0 && t.rows ≠ 0 && t.cols ≤ maxTilesPerSide && t.rows ≤ maxTilesPerSide &&
    t.colsLog2 ≤ 6 && t.rowsLog2 ≤ 6

/-- The tiles of a group of a frame with the given header, in order. The buffer is not trusted:
    sizes that do not fit it are errors. -/
def tiles (g : TileGroup) (s : Sequence) (header : Header) :
    Outcome TileGroupError (List Tile) := do
  let tileInfo := header.tileInfo
  let some data := g.tileData? | .fail (.dataOutside g.dataOffset g.dataSize g.data.length)
  if !validLayout tileInfo then
    .fail (.layout tileInfo.cols tileInfo.rows tileInfo.colsLog2 tileInfo.rowsLog2)
  let count ← tileInfo.tileCount
  if g.last < g.first || count ≤ g.last then
    .fail (.range g.first g.last count)
  let n := g.last - g.first + 1
  if maxTiles < n then
    .fail (.tooMany n)
  let sizes ← TileSizes.ofSequence s tileInfo
  tilesFrom g sizes data n g.first 0

end TileGroup

end Av1Frames
