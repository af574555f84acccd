import Av1Frames.Decoder.Frame
import Av1Frames.Tile.Window

namespace Av1Frames

/-- What a backend needs to start a frame. -/
structure Picture (S : Type) where
  sequence : Sequence
  header : Header
  state : FrameState
  surface : S
  references : FrameSlots S
deriving DecidableEq, Repr

/-- The calls of a decoder to its backend. -/
inductive Call (S : Type) where
  | changeStream (info : StreamInfo)
  | startFrame (picture : Picture S)
  /-- Hands over the tiles of a group, which lie in `data`. -/
  | decodeTiles (data : Bytes) (tiles : List Tile)
  | endFrame
deriving DecidableEq, Repr

/-- The methods that calls go to. -/
inductive Method where
  | changeStream
  | startFrame
  | decodeTiles
  | endFrame
deriving DecidableEq, Repr, Inhabited

/-- The method that a call goes to. -/
def Call.method {S : Type} : Call S → Method
  | changeStream _ => .changeStream
  | startFrame _ => .startFrame
  | decodeTiles _ _ => .decodeTiles
  | endFrame => .endFrame

/-- A backend with states of type `β` that decodes into surfaces of type `S`, together with the
    client that provides the surfaces. -/
structure Backend (β S : Type) where
  /-- Whether frames of a format can be decoded. -/
  supports : β → PixelFormat → Bool
  /-- Accepts or refuses a call. -/
  answer : β → Call S → Except BackendError Unit × β
  /-- Provides a surface for a new frame, if there is one left. -/
  allocate : β → Option S × β

/-- What happened between a decoder and its surroundings, in order. -/
inductive Entry (S : Type) where
  /-- The backend was called and accepted or refused. -/
  | called (call : Call S) (result : Except BackendError Unit)
  /-- A frame was shown from its slot. -/
  | shown (header : Header) (frame : Frame S)
  /-- A packet was given up, and the picture in progress with it. -/
  | failed
  /-- The client discarded all frames. -/
  | flushed

/-- The call that an entry tells of, if the backend accepted it. -/
def Entry.accepted? {S : Type} : Entry S → Option (Call S)
  | called call (.ok ()) => some call
  | _ => none

end Av1Frames
