import Av1Frames.Encoder.Config
import Av1Frames.Tile.Grid

namespace Av1Frames

open Checked

/-- Why there is no tiling for a configuration. -/
inductive LayoutError where
  | tileCount (cols rows : Nat)
  | sizeFieldBytes (n : Nat)
  | cols (asked least most : Nat)
  | rows (asked most : Nat)
  | tooFewRows (asked least : Nat)
  | noTiling (cols rows : Nat)
deriving DecidableEq, Repr

/-- What is wrong with a configuration without a tiling. -/
def LayoutError.reason : LayoutError → String
  | tileCount c r =>
    s!"invalid tile number {c}x{r}, should be less than {maxTilesPerSide}x{maxTilesPerSide}"
  | sizeFieldBytes n => s!"invalid tile size field length {n}"
  | cols asked least most => s!"invalid tile cols {asked}, should be in range of {least}~{most}"
  | rows asked most => s!"invalid tile rows {asked}, should be less than {most}"
  | tooFewRows asked least => s!"invalid tile rows {asked}, at least {least} are needed"
  | noTiling c r => s!"no valid tiling for {c}x{r} superblocks"

/-- The tiles of the frames of an encoded stream. -/
structure TileLayout where
  grid : SuperblockGrid
  uniform : Bool
  colsLog2 : Nat
  rowsLog2 : Nat
  /-- The widths of the columns in superblocks, each less one. -/
  widthsMinus1 : List Nat
  /-- The heights of the rows in superblocks, each less one. -/
  heightsMinus1 : List Nat
  tileSizeBytesMinus1 : Nat
deriving DecidableEq, Repr, Inhabited

namespace TileLayout

/-- The number nearest to `value` between `low` and `high`; `low` if there is none. -/
def clip (value low high : Nat) : Nat :=
  if value < low then low else if high < value then high else value

/-- The sizes, each less one, of `count` nearly equal parts of `sbs` superblocks. -/
def evenSplit (sbs count : Nat) : Except Fault (List Nat) :=
  (List.range count).mapM fun (i : Nat) => do
    let stop ← divide (← unsigned ((i + 1) * sbs)) count
    let start ← divide (← unsigned (i * sbs)) count
    unsigned ((← unsigned ((stop : Int) - start)) - 1)

/-- The sizes, each less one, of `count` parts of `size` superblocks, of which the last one is cut
    off at `sbs`. -/
def uniformSplit (sbs size count : Nat) : Except Fault (List Nat) :=
  (List.range count).mapM fun (i : Nat) => do
    if i = count - 1 then
      let before ← unsigned ((count - 1) * size)
      unsigned ((← unsigned ((sbs : Int) - before)) - 1)
    else
      unsigned ((size : Int) - 1)

/-- The columns of a layout, which do not depend on the number of rows. -/
structure Columns where
  grid : SuperblockGrid
  count : Nat
  log2 : Nat
  /-- The width of uniform tiles. -/
  uniformWidth : Nat
deriving DecidableEq, Repr

/-- The uniform layout with the given number of rows, if the configuration asks for one, it has just
    these numbers of columns and rows, and its tiles are small enough. -/
def uniform? (config : EncoderConfig) (columns : Columns) (rows : Nat) :
    Except Fault (Option TileLayout) := do
  let grid := columns.grid
  if !config.uniformSpacing then
    return none
  if (← divideUp grid.cols columns.uniformWidth) ≠ columns.count then
    return none
  let rowsLog2 ← tileLog2 1 rows
  let height ← SuperblockGrid.uniformTileSize grid.rows rowsLog2
  if (← divideUp grid.rows height) ≠ rows then
    return none
  if (← divide grid.maxTileAreaSb columns.uniformWidth) < height then
    return none
  return some {
    grid, rowsLog2
    uniform := true
    colsLog2 := columns.log2
    widthsMinus1 := ← uniformSplit grid.cols columns.uniformWidth columns.count
    heightsMinus1 := ← uniformSplit grid.rows height rows
    tileSizeBytesMinus1 := config.tileSizeBytes - 1 }

/-- The layout with the given number of rows or, if its tiles would be too great, the least number
    of rows that nearly equal tiles need. -/
def attempt (config : EncoderConfig) (columns : Columns) (rows : Nat) :
    Except Fault (Except Nat TileLayout) := do
  let grid := columns.grid
  match ← uniform? config columns rows with
  | some layout => return .ok layout
  | none =>
    let widthsMinus1 ← evenSplit grid.cols columns.count
    let least ← divideUp grid.rows (← grid.maxExplicitHeight widthsMinus1)
    if rows ≠ clip rows least grid.rows then
      return .error least
    return .ok {
      grid, widthsMinus1
      uniform := false
      colsLog2 := columns.log2
      rowsLog2 := ← tileLog2 1 rows
      heightsMinus1 := ← evenSplit grid.rows rows
      tileSizeBytesMinus1 := config.tileSizeBytes - 1 }

/-- The layout with the first of some numbers of rows that there is one with. -/
def firstFit (config : EncoderConfig) (columns : Columns) :
    List Nat → Outcome LayoutError TileLayout
  | [] => .fail (.noTiling columns.grid.cols columns.grid.rows)
  | rows :: rest => do
    match ← attempt config columns rows with
    | .ok layout => return layout
    | .error _ => firstFit config columns rest

/-- The columns that a configuration asks for, the fewest possible ones if it leaves them open. -/
def chooseColumns (config : EncoderConfig) : Outcome LayoutError Columns := do
  let grid ← SuperblockGrid.ofSize config.resolution.width config.resolution.height
    config.use128x128Superblock
  let least ← divideUp grid.cols grid.maxTileWidthSb
  let count := clip config.tileCols least grid.cols
  if config.tileCols ≠ 0 && config.tileCols ≠ count then
    .fail (.cols config.tileCols least grid.cols)
  if grid.rows < config.tileRows then
    .fail (.rows config.tileRows grid.rows)
  let log2 ← tileLog2 1 count
  return { grid, count, log2, uniformWidth := ← SuperblockGrid.uniformTileSize grid.cols log2 }

/-- The tiles that a configuration asks for. If it leaves the number of rows open, the least number
    that gives small enough tiles is taken. -/
def ofConfig (config : EncoderConfig) : Outcome LayoutError TileLayout := do
  if maxTilesPerSide < config.tileCols || maxTilesPerSide < config.tileRows then
    .fail (.tileCount config.tileCols config.tileRows)
  if config.tileSizeBytes < 1 || 4 < config.tileSizeBytes then
    .fail (.sizeFieldBytes config.tileSizeBytes)
  let columns ← chooseColumns config
  let _ ← columns.grid.minLog2Tiles
  if config.tileRows = 0 then
    firstFit config columns (List.range' 1 (min columns.grid.rows maxTilesPerSide))
  else
    match ← attempt config columns config.tileRows with
    | .ok layout => return layout
    | .error least => .fail (.tooFewRows config.tileRows least)

/-- How many columns there are. -/
def cols (l : TileLayout) : Nat := l.widthsMinus1.length

/-- How many rows there are. -/
def rows (l : TileLayout) : Nat := l.heightsMinus1.length

/-- The first 64 sizes, continued with zeros. -/
def firstSizes (sizes : List Nat) : Vector Nat 64 := Vector.ofFn fun i => sizes.getD i 0

/-- The tile info of frames with this layout. It has room for 64 columns and rows. -/
def tileInfo (l : TileLayout) : TileInfo := {
  uniformSpacing := l.uniform
  colsLog2 := l.colsLog2
  rowsLog2 := l.rowsLog2
  cols := l.cols
  rows := l.rows
  widthInSbsMinus1 := firstSizes l.widthsMinus1
  heightInSbsMinus1 := firstSizes l.heightsMinus1
  contextUpdateTileId := 0
  tileSizeBytesMinus1 := l.tileSizeBytesMinus1 }

end TileLayout

end Av1Frames
