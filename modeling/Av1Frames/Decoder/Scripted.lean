import Av1Frames.Decoder.Process

namespace Av1Frames

/-- The state of a backend that accepts everything but what it is prepared to refuse. Its surfaces
    are numbers, handed out in order. -/
structure Script where
  formats : List PixelFormat := [.i420, .i010]
  /-- The method of which the next call is refused, and how. -/
  refusal : Option (Method × BackendError) := none
  /-- How many surfaces were handed out. -/
  surfaces : Nat := 0
  /-- How many more may be handed out, if there is a limit. -/
  surfacesLeft : Option Nat := none
deriving DecidableEq, Repr, Inhabited

namespace Script

/-- Refuses a call of the prepared method, once, and accepts all other calls. -/
def answer (s : Script) (call : Call Nat) : Except BackendError Unit × Script :=
  match s.refusal with
  | some (method, e) =>
    if method = call.method then (.error e, { s with refusal := none }) else (.ok (), s)
  | none => (.ok (), s)

/-- Hands out the next surface while there are some left. -/
def allocate (s : Script) : Option Nat × Script :=
  if s.surfacesLeft = some 0 then
    (none, s)
  else
    (some s.surfaces,
      { s with surfaces := s.surfaces + 1, surfacesLeft := s.surfacesLeft.map (· - 1) })

/-- The scripted backend. -/
def backend : Backend Script Nat where
  supports s format := s.formats.contains format
  answer := answer
  allocate := allocate

/-- A session with a backend that is prepared to refuse nothing. -/
def session : Session Script Nat := .start {} 0

/-- A stream in a format that the backend supports, of one sample. -/
def sequence : Sequence := { color := { subsamplingX := true, subsamplingY := true } }

/-- The information on that stream. -/
def info : StreamInfo := { sequence, format := .i420, codedResolution := ⟨1, 1⟩ }

/-- A sequence without a pixel format. -/
def formatless : Sequence := { seqProfile := 3 }

/-- A key frame of two tiles. -/
def keyFrame : Header :=
  { primaryRefFrame := primaryRefNone, tileInfo := { cols := 2, colsLog2 := 1 } }

/-- A frame that refers to others but inherits nothing from them. -/
def interFrame : Header := { frameType := .interFrame, primaryRefFrame := primaryRefNone }

end Script

end Av1Frames
