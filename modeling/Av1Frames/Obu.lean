import Av1Frames.Bits.Reader
import Av1Frames.Descriptor.Leb128

namespace Av1Frames

/-- The kinds of open bitstream units. -/
inductive ObuType where
  | reserved
  | sequenceHeader
  | temporalDelimiter
  | frameHeader
  | tileGroup
  | metadata
  | frame
  | redundantFrameHeader
  | tileList
  | padding
deriving DecidableEq, Repr, Inhabited

namespace ObuType

/-- Every kind, in the order of the numbers. -/
def all : List ObuType :=
  [reserved, sequenceHeader, temporalDelimiter, frameHeader, tileGroup, metadata, frame,
    redundantFrameHeader, tileList, padding]

/-- The number of a kind in an OBU header. -/
def number : ObuType → Nat
  | reserved => 0
  | sequenceHeader => 1
  | temporalDelimiter => 2
  | frameHeader => 3
  | tileGroup => 4
  | metadata => 5
  | frame => 6
  | redundantFrameHeader => 7
  | tileList => 8
  | padding => 15

/-- The kind with a given number. Numbers 9 to 14 have none. -/
def ofNumber? (n : Int) : Option ObuType := all.find? fun kind => kind.number = n

end ObuType

/-- The header of an open bitstream unit. -/
structure ObuHeader where
  obuType : ObuType := .reserved
  /-- Whether the layer of the unit is given. -/
  extensionFlag : Bool := false
  /-- Whether the length of the payload is given. -/
  hasSizeField : Bool := false
  temporalId : Nat := 0
  spatialId : Nat := 0
deriving DecidableEq, Repr, Inhabited

namespace ObuHeader

/-- The header of a unit that gives its length and no layer. -/
def sized (obuType : ObuType) : ObuHeader := { obuType, hasSizeField := true }

/-- The bits of the header: a zero, the kind, the two flags and another zero, then the layer if it
    is given. -/
def bits (h : ObuHeader) : Bits :=
  Bits.ofNat 1 0 ++ Bits.ofNat 4 h.obuType.number ++ [h.extensionFlag] ++ [h.hasSizeField] ++
    Bits.ofNat 1 0 ++
    if h.extensionFlag then Bits.ofNat 3 h.temporalId ++ Bits.ofNat 2 h.spatialId ++ Bits.ofNat 3 0
    else []

/-- How many bytes the header takes. -/
def byteCount (h : ObuHeader) : Nat := if h.extensionFlag then 2 else 1

/-- Where the payload of the unit that begins `bytes` starts: after its header and, if there is one,
    the length of the payload. -/
def payloadOffset (h : ObuHeader) (bytes : Bytes) : Outcome ReadError Nat :=
  Read.ofBytes (do
    Read.skip (8 * h.byteCount)
    if h.hasSizeField then
      let _ ← Read.leb128
    return (← get).position / 8) bytes

end ObuHeader

end Av1Frames
