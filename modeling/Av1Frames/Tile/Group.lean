import Av1Frames.Bits.Reader
import Av1Frames.Obu
import Av1Frames.Tile.Info

namespace Av1Frames

/-- The part of `data` that starts at `offset` and has `size` bytes, if all of it is there. -/
def window? (data : Bytes) (offset size : Nat) : Option Bytes :=
  if offset + size ≤ data.length then some ((data.drop offset).take size) else none

/-- Why the tiles of a tile group cannot be found. -/
inductive TileGroupError where
  | payloadOutside (offset size length : Nat)
  | read (e : ReadError)
  | dataOutside (offset size length : Nat)
  | layout (cols rows colsLog2 rowsLog2 : Nat)
  | range (first last count : Nat)
  | tooMany (count : Nat)
  | sizeField (tile needed left : Nat)
  | tileSize (tile size left : Nat)
deriving DecidableEq, Repr

/-- The text shown for a tile group whose tiles cannot be found. -/
def TileGroupError.message : TileGroupError → String
  | payloadOutside offset size length =>
    s!"Tile group payload {offset}+{size} is out of the {length} bytes buffer"
  | read e => e.message
  | dataOutside offset size length =>
    s!"Tile data {offset}+{size} is out of the {length} bytes buffer"
  | layout cols rows colsLog2 rowsLog2 =>
    s!"Invalid tile layout {cols}x{rows} (log2 {colsLog2}x{rowsLog2})"
  | range first last count => s!"Invalid tile group range {first}..={last} for {count} tiles"
  | tooMany count => s!"Tile group has too many tiles: {count}"
  | sizeField tile needed left =>
    s!"Tile {tile} size field needs {needed} bytes, {left} left"
  | tileSize tile size left => s!"Tile {tile} has size {size} but only {left} bytes are left"

/-- A tile group within the buffer that it was received in. -/
structure TileGroup where
  obuHeader : ObuHeader := {}
  /-- Whether the range of tiles is given; otherwise the group has all tiles of the frame. -/
  startAndEndPresent : Bool := false
  /-- The number of the first tile. -/
  first : Nat := 0
  /-- The number of the last tile. -/
  last : Nat := 0
  /-- The whole buffer. -/
  data : Bytes := []
  /-- Where in the buffer the tiles start. -/
  dataOffset : Nat := 0
  /-- How many bytes the tiles take, their size fields included. -/
  dataSize : Nat := 0
deriving DecidableEq, Repr, Inhabited

namespace TileGroup

/-- The tiles of the group with their size fields, if the buffer has all of them. -/
def tileData? (g : TileGroup) : Option Bytes := window? g.data g.dataOffset g.dataSize

/-- Reads the header of a tile group of a frame with `count` tiles: whether a range is given, and
    the first and the last tile. It ends at the start of a byte. -/
def readRange (tileInfo : TileInfo) (count : Nat) : Read (Bool × Nat × Nat) := do
  let present ← if 1 < count then Read.bit else pure false
  if count = 1 || !present then
    Read.align
    return (present, 0, count - 1)
  else
    let n ← tileInfo.tileNumberBits
    let first ← Read.fixed n
    let last ← Read.fixed n
    Read.align
    return (present, first, last)

/-- The tile group whose payload is the part of `data` at `offset` that has `size` bytes. -/
def parse (obuHeader : ObuHeader) (data : Bytes) (offset size : Nat) (tileInfo : TileInfo) :
    Outcome TileGroupError TileGroup :=
  match window? data offset size with
  | none => .fail (.payloadOutside offset size data.length)
  | some payload => do
    let count ← tileInfo.tileCount
    let (range, reader) := (readRange tileInfo count).run (Reader.ofBytes payload)
    let (startAndEndPresent, first, last) ← Outcome.mapError TileGroupError.read range
    let headerBytes := reader.position / 8
    return {
      obuHeader, startAndEndPresent, first, last, data
      dataOffset := offset + headerBytes
      dataSize := size - headerBytes }

end TileGroup

end Av1Frames
