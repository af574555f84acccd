import Av1Frames.Descriptor.NonSymmetric
import Av1Frames.SyntaxError
import Av1Frames.Tile.Grid

namespace Av1Frames

open Checked

namespace TileInfo

/-- The bits that count from `least` up to `log2`: a set bit for each step, and a clear one unless
    `greatest` is reached. -/
def incrementBits (log2 least greatest : Nat) : Bits :=
  List.replicate (log2 - least) true ++ if log2 < greatest then [false] else []

/-- The bits of uniform spacing: the two logarithms. The numbers of columns and rows have to be
    those that follow from them. -/
def uniformBits (t : TileInfo) (grid : SuperblockGrid) : Encoding Bits := do
  let minCols ← grid.minLog2TileCols
  let maxCols ← grid.maxLog2TileCols
  if t.colsLog2 < minCols || maxCols < t.colsLog2 then
    .invalid .tileColsLog2
  if t.cols ≠ (← divideUp grid.cols (← SuperblockGrid.uniformTileSize grid.cols t.colsLog2)) then
    .invalid .tileCols
  let minRows := (← grid.minLog2Tiles) - t.colsLog2
  let maxRows ← grid.maxLog2TileRows
  if t.rowsLog2 < minRows || maxRows < t.rowsLog2 then
    .invalid .tileRowsLog2
  if t.rows ≠ (← divideUp grid.rows (← SuperblockGrid.uniformTileSize grid.rows t.rowsLog2)) then
    .invalid .tileRows
  return incrementBits t.colsLog2 minCols maxCols ++ incrementBits t.rowsLog2 minRows maxRows

/-- The names of the syntax elements of one direction: the number of tiles, and the size of each. -/
structure SideElements where
  count : SyntaxElement
  size : SyntaxElement

/-- The elements of the tile columns. -/
def colElements : SideElements := { count := .tileCols, size := .widthInSbsMinus1 }

/-- The elements of the tile rows. -/
def rowElements : SideElements := { count := .tileRows, size := .heightInSbsMinus1 }

/-- The bits of explicit sizes, given less one, that follow each other from superblock `start` of
    `total`. None is above `greatest` or reaches past the end. -/
def sizesBits (names : SideElements) (total greatest : Nat) :
    (start : Nat) → List Nat → Encoding Bits
  | _, [] => return []
  | start, minus1 :: rest => do
    if total ≤ start then
      .invalid names.count
    let room := min (total - start) greatest
    if room ≤ minus1 then
      .invalid names.size
    return (← Descriptor.nonSymmetric room minus1) ++
      (← sizesBits names total greatest (start + (minus1 + 1)) rest)

/-- How many superblocks there are in sizes that are given less one. -/
def covered (sizes : List Nat) : Nat := sizes.foldr (fun minus1 rest => minus1 + 1 + rest) 0

/-- Requires that explicit sizes, given less one, fill a side, and that `log2` is the logarithm of
    their number. -/
def requireFilled (names : SideElements) (total log2 : Nat) (sizes : List Nat) : Encoding Unit := do
  if covered sizes ≠ total || log2 ≠ (← tileLog2 1 sizes.length) then
    .invalid names.count

/-- The bits of explicit spacing: the widths of the columns, then the heights of the rows, which are
    bounded by an area that the widest column divides. -/
def explicitBits (t : TileInfo) (grid : SuperblockGrid) : Encoding Bits := do
  if maxTilesPerSide < t.cols then
    .invalid .tileCols
  if maxTilesPerSide < t.rows then
    .invalid .tileRows
  let widths := t.widthInSbsMinus1.toList.take t.cols
  let heights := t.heightInSbsMinus1.toList.take t.rows
  let widthBits ← sizesBits colElements grid.cols grid.maxTileWidthSb 0 widths
  requireFilled colElements grid.cols t.colsLog2 widths
  let heightBits ← sizesBits rowElements grid.rows (← grid.maxExplicitHeight widths) 0 heights
  requireFilled rowElements grid.rows t.rowsLog2 heights
  return widthBits ++ heightBits

/-- The bits after the spacing, which only frames of several tiles have: the tile whose contexts are
    kept, and the length of size fields. -/
def trailerBits (t : TileInfo) : Encoding Bits := do
  if 0 < t.colsLog2 || 0 < t.rowsLog2 then
    return (← Descriptor.fixed (← t.tileNumberBits) t.contextUpdateTileId) ++
      (← Descriptor.fixed 2 t.tileSizeBytesMinus1)
  else
    return []

/-- The bits of the tile info of a frame with the given superblock grid: `tile_info()`. What is
    written is checked against the grid, which a reader needs too. -/
def bits (t : TileInfo) (grid : SuperblockGrid) : Encoding Bits := do
  let spacing ← if t.uniformSpacing then t.uniformBits grid else t.explicitBits grid
  return t.uniformSpacing :: spacing ++ (← t.trailerBits)

end TileInfo

end Av1Frames
