import Av1Frames.Decoder.Input
import Av1Frames.FrameState.Derivation

namespace Av1Frames

variable {S : Type}

/-- The parameters of the stream that is being decoded. -/
structure StreamInfo where
  sequence : Sequence
  format : PixelFormat
  /-- The greatest frame size of the sequence. -/
  codedResolution : Resolution
deriving DecidableEq, Repr, Inhabited

/-- A frame on a surface of type `S`, with the state that later frames can inherit. -/
structure Frame (S : Type) where
  surface : S
  state : FrameState
  frameType : FrameType
  spatialId : Nat
  resolution : Resolution
deriving DecidableEq, Repr

/-- The frame that a header describes. -/
def Frame.ofHeader (header : Header) (surface : S) (state : FrameState) : Frame S := {
  surface, state
  frameType := header.frameType
  spatialId := header.obuHeader.spatialId
  resolution := { width := header.upscaledWidth, height := header.frameHeight } }

/-- The reference slots of a decoder. -/
abbrev FrameSlots (S : Type) := Slots (Frame S)

/-- The states of the frames in the slots. -/
def FrameSlots.states (slots : FrameSlots S) : StateSlots := slots.view Frame.state

/-- A frame ready to be shown. -/
structure OutputFrame (S : Type) where
  surface : S
  stamps : Timestamps
  spatialId : Nat
  resolution : Resolution
deriving DecidableEq, Repr

/-- What happened for the client to know. -/
inductive Event (S : Type) where
  | frameReady (frame : OutputFrame S)
  /-- The frames of later events are in a new format. -/
  | formatChanged (info : StreamInfo)
deriving DecidableEq, Repr

/-- Why a backend refuses a call. -/
inductive BackendError where
  | outOfResources
  | other (text : String)
deriving DecidableEq, Repr

/-- The text shown for a refused call. -/
def BackendError.message : BackendError → String
  | outOfResources => "not enough resources to proceed with the operation now"
  | other text => text

/-- Why a decoder cannot go on with a unit. -/
inductive DecodeError where
  /-- There is no surface for a frame. -/
  | noSurface
  | headerBeforeSequence
  | tilesBeforeSequence
  | tileGroup (e : TileGroupError)
  | format (e : FormatError)
  | largeScaleTile
  /-- The backend cannot decode into a format. -/
  | formatRefused (f : PixelFormat)
  | sequenceWithinFrame (frameCount : Nat)
  | headerWithinFrame (frameCount : Nat)
  | shownSlotEmpty (slot : Nat)
  | tilesWithoutHeader
  | tileOrder (first expected : Nat)
  | state (e : StateError)
  | backend (e : BackendError)
deriving DecidableEq, Repr

/-- The kinds of decoding errors that a client tells apart. -/
inductive DecodeError.Kind where
  | buffers
  | parse
  | stream
  | hardware
  | decoder
  | backend
deriving DecidableEq, Repr

namespace DecodeError

/-- The kind of an error. -/
def kind : DecodeError → Kind
  | noSurface => .buffers
  | headerBeforeSequence | tilesBeforeSequence | tileGroup _ => .parse
  | format _ | largeScaleTile => .stream
  | formatRefused _ => .hardware
  | sequenceWithinFrame _ | headerWithinFrame _ | shownSlotEmpty _ | tilesWithoutHeader
  | tileOrder _ _ | state _ => .decoder
  | backend _ => .backend

/-- What is wrong, without the words that all errors of a kind begin with. -/
def reason : DecodeError → String
  | noSurface => "need 1 more"
  | headerBeforeSequence => "frame header received before any sequence header"
  | tilesBeforeSequence => "tile group received before any sequence header"
  | tileGroup e => e.message
  | format e => e.message
  | largeScaleTile => "large scale tile not supported"
  | formatRefused f => f.name
  | sequenceWithinFrame n =>
    s!"Broken stream: new sequence header while frame {n} is incomplete"
  | headerWithinFrame n => s!"Broken stream: new frame header while frame {n} is incomplete"
  | shownSlotEmpty slot => s!"Broken stream: no reference picture to display in slot {slot}"
  | tilesWithoutHeader =>
    "Broken stream: cannot decode a tile group without first decoding a frame header"
  | tileOrder first expected =>
    s!"Broken stream: tile group starts at tile {first}, expected {expected}"
  | state e => e.message
  | backend e => e.message

/-- The words that all errors of a kind begin with. -/
def Kind.lead : Kind → String
  | buffers => "not enough output buffers available to continue, "
  | parse => "failed to parse frame: "
  | stream => "unsupported stream: "
  | hardware => "the hardware cannot decode into "
  | decoder | backend => ""

/-- The text shown for an error. -/
def message (e : DecodeError) : String := e.kind.lead ++ e.reason

end DecodeError

end Av1Frames
