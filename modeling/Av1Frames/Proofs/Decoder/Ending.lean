import Av1Frames.Decoder.Process

namespace Av1Frames

variable {S : Type}

namespace Decoder

/-- The decoder after it has given up the picture in progress. -/
def withoutPicture (d : Decoder S) : Decoder S := { d with picture := none, phase := .idle }

/-- The decoder after it has taken over a stream. Only a key frame ends a reset. -/
def withStream (d : Decoder S) (info : StreamInfo) (layer : Option Nat) : Decoder S :=
  { d with
    highestSpatialLayer := layer
    codedResolution := info.codedResolution
    stream := some info
    events := d.events ++ [.formatChanged info]
    status := if d.status = .reset then .reset else .decoding }

/-- The decoder once the key frame has come that it may have waited for. -/
def awake (d : Decoder S) : Decoder S :=
  { d with status := if d.status = .reset then .decoding else d.status }

/-- The decoder after the backend has started a frame. -/
def withPicture (d : Decoder S) (picture : CurrentPicture S) : Decoder S :=
  { d.awake with picture := some picture, phase := .submitted }

/-- The events that tell the client of a frame: none if it belongs to a spatial layer below the
    highest one. -/
def outputEvents (d : Decoder S) (frame : Frame S) (spatialId : Nat) (stamps : Timestamps) :
    List (Event S) :=
  if d.highestSpatialLayer.any (spatialId < ·) then []
  else [.frameReady { surface := frame.surface, stamps, spatialId, resolution := frame.resolution }]

/-- The decoder after it has shown a frame from its slot, before the frame is counted. -/
def withShown (d : Decoder S) (header : Header) (frame : Frame S) (stamps : Timestamps) :
    Decoder S :=
  { d with
    references :=
      if frame.frameType = .keyFrame then d.references.refresh allSlots frame else d.references
    events := d.events ++ d.outputEvents frame header.obuHeader.spatialId stamps
    phase := .idle }

/-- The decoder after it has completed a picture, before the frame is counted. -/
def withFinished (d : Decoder S) (picture : CurrentPicture S) (stamps : Timestamps) : Decoder S :=
  { d with
    references := d.references.refresh picture.header.refreshMask picture.frame
    events := d.events ++
      if picture.header.showFrame then
        d.outputEvents picture.frame picture.header.obuHeader.spatialId stamps
      else []
    phase := .idle }

/-- The decoder after it has counted a frame. -/
def counted (d : Decoder S) : Decoder S := { d with frameCount := d.frameCount + 1 }

end Decoder

open Decoder

/-- The errors with which a sequence header fails whose format can be decoded into, or was not
    looked at, each with what it enters into the journal. -/
inductive Failure.OfSequence : Failure DecodeError → List (Entry S) → Prop
  | withinFrame (frameCount : Nat) : OfSequence (.error (.sequenceWithinFrame frameCount)) []
  | refused (info : StreamInfo) (e : BackendError) :
      OfSequence (.error (.backend e)) [.called (.changeStream info) (.error e)]
  | fault (f : Fault) : OfSequence (.fault f) []

theorem Failure.OfSequence.changeStream {e : Failure DecodeError} {entries : List (Entry S)}
    (h : e.OfSequence entries) :
    ∀ entry ∈ entries, ∃ info answer, entry = .called (.changeStream info) answer := by
  cases h with
  | withinFrame => exact List.forall_mem_nil _
  | refused info e => exact List.forall_mem_singleton.mpr ⟨info, .error e, rfl⟩
  | fault => exact List.forall_mem_nil _

/-- How a sequence header can end: with what result, with what entries in the journal, and with what
    decoder. What decoding preserves follows from such lists of endings, without another look at the
    computations. -/
inductive SequenceEnding (d : Decoder S) (s : Sequence) :
    Outcome DecodeError Unit → List (Entry S) → Decoder S → Prop
  /-- It repeats the current one. -/
  | repeated {info : StreamInfo} (hstream : d.stream = some info) (hsame : info.sequence = s)
      (hstatus : ∀ format, d.status ≠ .unsupported format) : SequenceEnding d s (.ok ()) [] d
  /-- It has no pixel format. -/
  | formatless {e : FormatError} (hpicture : d.picture = none)
      (hformat : s.pixelFormat = .error e) :
      SequenceEnding d s (.error (.error (.format e))) []
        { d.withoutPicture with stream := none, status := .awaitingStream }
  /-- The backend cannot decode into its format. -/
  | unsupported {format : PixelFormat} (hpicture : d.picture = none)
      (hformat : s.pixelFormat = .ok format) :
      SequenceEnding d s (.error (.error (.formatRefused format))) []
        { d.withoutPicture with status := .unsupported format }
  /-- It comes while a picture is in progress, or the backend refuses the stream, or a number does
      not fit. -/
  | failed {e : Failure DecodeError} {entries : List (Entry S)}
      (hformat : d.picture = none → ∃ format, s.pixelFormat = .ok format)
      (hcause : e.OfSequence entries) : SequenceEnding d s (.error e) entries d.withoutPicture
  /-- It begins a new stream. -/
  | taken {info : StreamInfo} {layer : Option Nat} (hpicture : d.picture = none)
      (hsequence : info.sequence = s) (hformat : s.pixelFormat = .ok info.format)
      (hsize : s.codedResolution = .ok info.codedResolution)
      (hlayer : (s.selectedPoint d.operatingPoint).highestSpatialLayer? = .ok layer) :
      SequenceEnding d s (.ok ()) [.called (.changeStream info) (.ok ())] (d.withStream info layer)

/-- What is known of the picture that a header starts. -/
structure Decoder.Starts (d : Decoder S) (header : Header) (started : Picture S) : Prop where
  picture_eq : d.picture = none
  /-- While a key frame is awaited nothing else is started. -/
  key : d.status = .reset → header.frameType = .keyFrame
  regular : header.showExistingFrame = false
  header_eq : started.header = header
  stream : ∃ info, d.stream = some info ∧ started.sequence = info.sequence
  references_eq : started.references = d.references
  state : FrameState.derive started.sequence header d.references.states = .ok started.state

/-- The errors with which a frame fails before the backend hears of it. -/
inductive Failure.BeforeStart : Failure DecodeError → Prop
  | noSurface : BeforeStart (.error .noSurface)
  | state (e : StateError) : BeforeStart (.error (.state e))
  | fault (f : Fault) : BeforeStart (.fault f)

/-- How a frame header can end. A result says whether tiles may follow. -/
inductive HeaderEnding (d : Decoder S) (header : Header) (stamps : Timestamps) :
    Outcome DecodeError Bool → List (Entry S) → Decoder S → Prop
  /-- It is skipped because a key frame is awaited. -/
  | waiting (hstatus : d.status = .reset)
      (hheader : header.frameType ≠ .keyFrame ∨ header.showExistingFrame = true) :
      HeaderEnding d header stamps (.ok false) [] d
  /-- It comes without a stream or while a picture is in progress, or shows an empty slot. -/
  | rejected {e : DecodeError} :
      HeaderEnding d header stamps (.error (.error e)) [] d.withoutPicture
  /-- It shows the frame in a slot. -/
  | shown {frame : Frame S} (hpicture : d.picture = none) (hstatus : d.status ≠ .reset)
      (hheader : header.showExistingFrame = true)
      (hframe : d.references.content? header.frameToShowMapIdx = some frame)
      (hstream : ∃ info, d.stream = some info) :
      HeaderEnding d header stamps (.ok false) [.shown header frame]
        (d.withShown header frame stamps).counted
  /-- It shows one frame more than can be counted. -/
  | uncounted {f : Fault} {frame : Frame S} (hstatus : d.status ≠ .reset)
      (hframe : d.references.content? header.frameToShowMapIdx = some frame)
      (hstream : ∃ info, d.stream = some info) :
      HeaderEnding d header stamps (.error (.fault f)) [.shown header frame]
        (d.withShown header frame stamps).withoutPicture
  /-- It fails after it has ended a reset, and before the backend is called. -/
  | failed {e : Failure DecodeError} (he : e.BeforeStart) :
      HeaderEnding d header stamps (.error e) [] d.awake.withoutPicture
  /-- The backend refuses the frame. -/
  | refused {started : Picture S} {e : BackendError} (hstarts : d.Starts header started) :
      HeaderEnding d header stamps (.error (.error (.backend e)))
        [.called (.startFrame started) (.error e)] d.awake.withoutPicture
  /-- The backend starts the frame. -/
  | started {started : Picture S} (hstarts : d.Starts header started) :
      HeaderEnding d header stamps (.ok true) [.called (.startFrame started) (.ok ())]
        (d.withPicture { header, frame := .ofHeader header started.surface started.state })

/-- How the completion of a picture can end. -/
inductive FinishEnding (d : Decoder S) (picture : CurrentPicture S) (stamps : Timestamps) :
    Outcome DecodeError Unit → List (Entry S) → Decoder S → Prop
  /-- The backend refuses the end of the frame. -/
  | refused {e : BackendError} :
      FinishEnding d picture stamps (.error (.error (.backend e))) [.called .endFrame (.error e)]
        d.withoutPicture
  | finished :
      FinishEnding d picture stamps (.ok ()) [.called .endFrame (.ok ())]
        (d.withFinished picture stamps).counted
  /-- It is one frame more than can be counted. -/
  | uncounted {f : Fault} :
      FinishEnding d picture stamps (.error (.fault f)) [.called .endFrame (.ok ())]
        (d.withFinished picture stamps).withoutPicture

/-- How a tile group can end. -/
inductive TilesEnding (d : Decoder S) (group : TileGroup) (stamps : Timestamps) :
    Outcome DecodeError Unit → List (Entry S) → Decoder S → Prop
  /-- It is skipped because a key frame is awaited. -/
  | waiting (hpicture : d.picture = none) (hstatus : d.status = .reset) :
      TilesEnding d group stamps (.ok ()) [] d
  /-- It does not belong to the picture in progress, or the backend refuses its tiles. -/
  | failed {e : Failure DecodeError} {entries : List (Entry S)}
      (hentries : ∀ entry ∈ entries,
        ∃ tiles answer, entry = .called (.decodeTiles group.data tiles) answer) :
      TilesEnding d group stamps (.error e) entries d.withoutPicture
  /-- The picture has more tiles to come. -/
  | taken {info : StreamInfo} {picture : CurrentPicture S} {tiles : List Tile}
      (hstream : d.stream = some info) (hpicture : d.picture = some picture)
      (htiles : group.tiles info.sequence picture.header = .ok tiles) :
      TilesEnding d group stamps (.ok ()) [.called (.decodeTiles group.data tiles) (.ok ())]
        { d with
          picture := some { picture with tilesDecoded := picture.tilesDecoded + tiles.length } }
  /-- The picture has all its tiles. -/
  | completed {info : StreamInfo} {picture : CurrentPicture S} {tiles : List Tile}
      {r : Outcome DecodeError Unit} {entries : List (Entry S)} {d' : Decoder S}
      (hstream : d.stream = some info) (hpicture : d.picture = some picture)
      (htiles : group.tiles info.sequence picture.header = .ok tiles)
      (hfinish : FinishEnding { d with picture := none }
        { picture with tilesDecoded := picture.tilesDecoded + tiles.length } stamps r entries d') :
      TilesEnding d group stamps r (.called (.decodeTiles group.data tiles) (.ok ()) :: entries) d'

/-- The frame header of a unit, if it has one. -/
def Obu.frameHeader? : Obu → Option Header
  | .frameHeader header | .redundantFrameHeader header | .frame header _ => some header
  | _ => none

/-- How a unit can end that is not skipped. -/
inductive DispatchEnding (d : Decoder S) (stamps : Timestamps) :
    Obu → Outcome DecodeError Unit → List (Entry S) → Decoder S → Prop
  /-- It is of no interest, or repeats the header of the picture in progress. -/
  | ignored {obu : Obu} (hobu : ∀ s, obu ≠ .sequenceHeader s) :
      DispatchEnding d stamps obu (.ok ()) [] d
  | tileList {h : ObuHeader} :
      DispatchEnding d stamps (.tileList h) (.error (.error .largeScaleTile)) [] d.withoutPicture
  | sequence {s : Sequence} {r : Outcome DecodeError Unit} {entries : List (Entry S)}
      {d' : Decoder S} (hsequence : SequenceEnding d s r entries d') :
      DispatchEnding d stamps (.sequenceHeader s) r entries d'
  | header {obu : Obu} {header : Header} {tilesFollow : Bool} {entries : List (Entry S)}
      {d' : Decoder S} (hobu : obu.frameHeader? = some header)
      (hheader : HeaderEnding d header stamps (.ok tilesFollow) entries d') :
      DispatchEnding d stamps obu (.ok ()) entries d'
  | headerFailed {obu : Obu} {header : Header} {e : Failure DecodeError} {entries : List (Entry S)}
      {d' : Decoder S} (hobu : obu.frameHeader? = some header)
      (hheader : HeaderEnding d header stamps (.error e) entries d') :
      DispatchEnding d stamps obu (.error e) entries d'
  | tiles {group : TileGroup} {r : Outcome DecodeError Unit} {entries : List (Entry S)}
      {d' : Decoder S} (htiles : TilesEnding d group stamps r entries d') :
      DispatchEnding d stamps (.tileGroup group) r entries d'
  /-- It is a frame, of which the header is followed by tiles. -/
  | frame {header : Header} {group : TileGroup} {r : Outcome DecodeError Unit}
      {first rest : List (Entry S)} {d₁ d' : Decoder S}
      (hheader : HeaderEnding d header stamps (.ok true) first d₁)
      (htiles : TilesEnding d₁ group stamps r rest d') :
      DispatchEnding d stamps (.frame header group) r (first ++ rest) d'

/-- Units with the given header belong to the operating point of the stream, if there is one. -/
def Decoder.Includes (d : Decoder S) (h : ObuHeader) : Prop :=
  ∀ info, d.stream = some info →
    (info.sequence.selectedPoint d.operatingPoint).includes h = .ok true

/-- How a unit can end. -/
inductive UnitEnding (d : Decoder S) (stamps : Timestamps) (obu : Obu) :
    Outcome DecodeError Unit → List (Entry S) → Decoder S → Prop
  /-- It does not belong to the operating point. -/
  | excluded {info : StreamInfo} (hstream : d.stream = some info)
      (hexcluded : (info.sequence.selectedPoint d.operatingPoint).includes obu.header = .ok false) :
      UnitEnding d stamps obu (.ok ()) [] d
  /-- Its layers have no numbers that fit. -/
  | faulted {f : Fault} : UnitEnding d stamps obu (.error (.fault f)) [] d.withoutPicture
  /-- The format of the stream was refused, and it does not begin another stream. -/
  | unsupported {format : PixelFormat} (hstatus : d.status = .unsupported format)
      (hobu : ∀ s, obu ≠ .sequenceHeader s) :
      UnitEnding d stamps obu (.error (.error (.formatRefused format))) [] d.withoutPicture
  | dispatched {r : Outcome DecodeError Unit} {entries : List (Entry S)} {d' : Decoder S}
      (hincluded : d.Includes obu.header)
      (hstatus : ∀ format, d.status = .unsupported format → ∃ s, obu = .sequenceHeader s)
      (hdispatch : DispatchEnding d stamps obu r entries d') : UnitEnding d stamps obu r entries d'

/-- How units one after the other can end. The first that fails is the last. -/
inductive UnitsEnding (stamps : Timestamps) :
    Decoder S → List Obu → Outcome DecodeError Unit → List (Entry S) → Decoder S → Prop
  | nil {d : Decoder S} : UnitsEnding stamps d [] (.ok ()) [] d
  | failed {d d' : Decoder S} {obu : Obu} {rest : List Obu} {e : Failure DecodeError}
      {entries : List (Entry S)} (hunit : UnitEnding d stamps obu (.error e) entries d') :
      UnitsEnding stamps d (obu :: rest) (.error e) entries d'
  | cons {d d₁ d' : Decoder S} {obu : Obu} {rest : List Obu} {r : Outcome DecodeError Unit}
      {first later : List (Entry S)} (hunit : UnitEnding d stamps obu (.ok ()) first d₁)
      (hrest : UnitsEnding stamps d₁ rest r later d') :
      UnitsEnding stamps d (obu :: rest) r (first ++ later) d'

end Av1Frames
