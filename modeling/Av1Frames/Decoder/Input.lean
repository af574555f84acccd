import Av1Frames.Header
import Av1Frames.Sequence
import Av1Frames.Tile.Group

namespace Av1Frames

/-- An open bitstream unit with what is known of its content. -/
inductive Obu where
  | sequenceHeader (s : Sequence)
  | temporalDelimiter (h : ObuHeader)
  | frameHeader (h : Header)
  | redundantFrameHeader (h : Header)
  | tileGroup (g : TileGroup)
  | metadata (h : ObuHeader)
  | frame (h : Header) (g : TileGroup)
  | tileList (h : ObuHeader)
  | padding (h : ObuHeader)
  | reserved (h : ObuHeader)
deriving DecidableEq, Repr

/-- The header of a unit; for a frame it is the one that came with the frame header. -/
def Obu.header : Obu → ObuHeader
  | sequenceHeader s => s.obuHeader
  | frameHeader h | redundantFrameHeader h | frame h _ => h.obuHeader
  | tileGroup g => g.obuHeader
  | temporalDelimiter h | metadata h | tileList h | padding h | reserved h => h

/-- When a frame is to be presented and decoded. -/
structure Timestamps where
  pts : Nat := 0
  dts : Nat := 0
deriving DecidableEq, Repr, Inhabited

/-- Some units with the timestamps of the frames that are output while they are processed. -/
structure Packet where
  stamps : Timestamps := {}
  obus : List Obu := []
deriving DecidableEq, Repr, Inhabited

end Av1Frames
