import Av1Frames.Descriptor.Leb128
import Av1Frames.SyntaxError
import Av1Frames.Tile.Group

namespace Av1Frames

open Checked

/-- A tile group to be written. -/
structure CodedTileGroup where
  obuHeader : ObuHeader := {}
  /-- Whether the range of tiles is given; otherwise the group has to have all tiles. -/
  startAndEndPresent : Bool := false
  /-- The number of the first tile. -/
  first : Nat := 0
  /-- The number of the last tile. -/
  last : Nat := 0
  /-- The payloads of the tiles from `first` to `last`. -/
  tiles : List Bytes := []
deriving DecidableEq, Repr, Inhabited

namespace CodedTileGroup

/-- The bits of the header of a group of a frame with `count` tiles: whether a range is given, and
    the range. -/
def rangeBits (g : CodedTileGroup) (tileInfo : TileInfo) (count : Nat) : Encoding Bits := do
  let flag := if 1 < count then [g.startAndEndPresent] else []
  if count = 1 || !g.startAndEndPresent then
    if g.first ≠ 0 then
      .invalid .tileStartAndEndPresentFlag
    if (← unsigned (g.last + 1)) ≠ count then
      .invalid .tileStartAndEndPresentFlag
    return flag
  else
    let n ← tileInfo.tileNumberBits
    return flag ++ (← Descriptor.fixed n g.first) ++ (← Descriptor.fixed n g.last)

/-- Requires one payload for each tile of the range, which is not empty. -/
def requireComplete (g : CodedTileGroup) : Encoding Unit := do
  if g.last < g.first then
    .invalid .tgEnd
  if g.tiles.length ≠ (← unsigned ((g.last - g.first) + 1)) then
    .invalid .tgEnd

/-- The payloads, each but the last one after its size less one, in `n` bytes. A payload with a size
    field has at least one byte and no more than the field can tell. -/
def tilesBytes (n : Nat) : List Bytes → Encoding Bytes
  | [] => return []
  | [tile] => return tile
  | tile :: next :: rest => do
    if tile.isEmpty || 1 <<< (8 * n) < tile.length then
      .invalid .tileSizeMinus1
    let minus1 ← Encoding.length32 (tile.length - 1)
    return Descriptor.littleEndianBytes n minus1 ++ tile ++ (← tilesBytes n (next :: rest))

/-- The payload of the unit: the header of the group up to the start of a byte, and the tiles. The
    greatest size of a tile is kept in 64 bits. -/
def payload (g : CodedTileGroup) (tileInfo : TileInfo) : Encoding Bytes := do
  let header ← g.rangeBits tileInfo (← tileInfo.tileCount)
  g.requireComplete
  if 8 ≤ tileInfo.sizeFieldBytes then
    throw (.fault .shift)
  return Bits.toBytes header ++ (← tilesBytes tileInfo.sizeFieldBytes g.tiles)

/-- The bytes of the whole unit. -/
def bytes (g : CodedTileGroup) (tileInfo : TileInfo) : Encoding Bytes := do
  if g.obuHeader.obuType ≠ .tileGroup then
    .invalid .obuType
  let payload ← g.payload tileInfo
  let size ←
    if g.obuHeader.hasSizeField then
      pure (Descriptor.leb128 (← Encoding.length32 payload.length) 0)
    else
      pure []
  return Bits.toBytes g.obuHeader.bits ++ size ++ payload

end CodedTileGroup

end Av1Frames
