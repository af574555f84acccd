import Av1Frames.Decoder.Backend

namespace Av1Frames

/-- How far the current frame has come. -/
inductive Phase where
  | idle
  | headerParsed
  | surfaceAllocated
  /-- The backend has the frame and is given its tiles. -/
  | submitted
  | decoded
  | referencesUpdated
deriving DecidableEq, Repr, Inhabited

/-- What a decoder is waiting for. -/
inductive Status where
  /-- A usable sequence header. -/
  | awaitingStream
  /-- Nothing in particular. -/
  | decoding
  /-- A key frame, after all frames were discarded. -/
  | reset
  /-- A sequence header with another format than the one that the backend refused. -/
  | unsupported (format : PixelFormat)
deriving DecidableEq, Repr, Inhabited

/-- The picture in progress. -/
structure CurrentPicture (S : Type) where
  header : Header
  frame : Frame S
  /-- How many tiles the backend was given. -/
  tilesDecoded : Nat := 0
deriving DecidableEq, Repr

/-- The state of a decoder. -/
structure Decoder (S : Type) where
  /-- The operating point that the client chose. -/
  operatingPoint : Nat := 0
  codedResolution : Resolution := {}
  /-- The events that the client has not taken yet, oldest first. -/
  events : List (Event S) := []
  status : Status := .awaitingStream
  references : FrameSlots S := Slots.empty
  /-- The stream, once there was a usable sequence header. -/
  stream : Option StreamInfo := none
  picture : Option (CurrentPicture S) := none
  phase : Phase := .idle
  /-- How many frames were finished or shown. -/
  frameCount : Nat := 0
  /-- The spatial layer below which frames are not output, if the operating point has layers. -/
  highestSpatialLayer : Option Nat := none
deriving DecidableEq, Repr

/-- A decoder with its backend, and a record of what happened between them. -/
structure Session (β S : Type) where
  decoder : Decoder S
  backend : β
  journal : List (Entry S) := []

/-- A computation of a session. The session outlives its failures. -/
abbrev Decode (β S : Type) := ExceptT (Failure DecodeError) (StateM (Session β S))

namespace Decode

variable {β S : Type}

/-- Stops with an error of decoding. -/
def fail {α : Type} (e : DecodeError) : Decode β S α := throw (.error e)

/-- The result of a computation outside the session, its errors seen as errors of decoding. -/
def ofOutcome {ε α : Type} (f : ε → DecodeError) (x : Outcome ε α) : Decode β S α :=
  ExceptT.mk (pure (x.mapError f))

/-- The state of the decoder. -/
def decoder : Decode β S (Decoder S) := do return (← get).decoder

/-- Changes the state of the decoder. -/
def update (f : Decoder S → Decoder S) : Decode β S Unit :=
  modify fun s => { s with decoder := f s.decoder }

/-- Notes what happened. -/
def note (e : Entry S) : Decode β S Unit := modify fun s => { s with journal := s.journal ++ [e] }

/-- Enters a phase of the current frame. -/
def enter (phase : Phase) : Decode β S Unit := update ({ · with phase })

/-- Queues an event. -/
def queue (event : Event S) : Decode β S Unit :=
  update fun d => { d with events := d.events ++ [event] }

/-- Calls the backend. -/
def call (backend : Backend β S) (c : Call S) : Decode β S Unit := do
  let s ← get
  let (result, state) := backend.answer s.backend c
  set { s with backend := state }
  note (.called c result)
  match result with
  | .ok () => return
  | .error e => fail (.backend e)

/-- Obtains a surface for a new frame. -/
def allocate (backend : Backend β S) : Decode β S S := do
  let s ← get
  let (surface, state) := backend.allocate s.backend
  set { s with backend := state }
  match surface with
  | some surface => return surface
  | none => fail .noSurface

/-- Counts a frame as finished or shown. The count is kept in 32 bits. -/
def countFrame : Decode β S Unit := do
  let frameCount ← Checked.unsigned ((← decoder).frameCount + 1)
  update ({ · with frameCount })

end Decode

end Av1Frames
