import Av1Frames.Decoder.Session

namespace Av1Frames

namespace Decode

variable {β S : Type} (backend : Backend β S)

/-- Takes over a sequence header. One that repeats the current sequence does nothing. A sequence
    without a pixel format leaves no stream; one whose format the backend cannot decode into stops
    decoding until the next sequence header. -/
def sequenceHeader (s : Sequence) : Decode β S Unit := do
  let d ← decoder
  if d.stream.any (·.sequence = s) && !(d.status matches .unsupported _) then
    return
  if d.picture.isSome then
    fail (.sequenceWithinFrame d.frameCount)
  match s.pixelFormat with
  | .error e =>
    update ({ · with stream := none, status := .awaitingStream })
    fail (.format e)
  | .ok format =>
    if !backend.supports (← get).backend format then
      update ({ · with status := .unsupported format })
      fail (.formatRefused format)
    let info : StreamInfo := { sequence := s, format, codedResolution := ← s.codedResolution }
    call backend (.changeStream info)
    let highestSpatialLayer ← (s.selectedPoint d.operatingPoint).highestSpatialLayer?
    update ({ · with
      highestSpatialLayer
      codedResolution := info.codedResolution
      stream := some info })
    queue (.formatChanged info)
    if (← decoder).status ≠ .reset then
      update ({ · with status := .decoding })

/-- Outputs a frame, unless it belongs to a spatial layer below the highest one. The layer and the
    timestamps are those of the header that shows it. -/
def output (frame : Frame S) (spatialId : Nat) (stamps : Timestamps) : Decode β S Unit := do
  unless (← decoder).highestSpatialLayer.any (spatialId < ·) do
    queue (.frameReady {
      surface := frame.surface, stamps, spatialId, resolution := frame.resolution })

/-- Shows the frame in the slot that a header names. A key frame that is shown also fills all
    slots. -/
def showExisting (header : Header) (stamps : Timestamps) : Decode β S Unit := do
  let slot := header.frameToShowMapIdx
  let some frame := (← decoder).references.content? slot | fail (.shownSlotEmpty slot)
  note (.shown header frame)
  output frame header.obuHeader.spatialId stamps
  if frame.frameType = .keyFrame then
    update fun d => { d with references := d.references.refresh allSlots frame }
    enter .referencesUpdated
  countFrame

/-- Starts the frame that a header describes. The result says whether its tiles may follow: they do
    not when a frame is only shown, or skipped while a key frame is awaited. -/
def frameHeader (header : Header) (stamps : Timestamps) : Decode β S Bool := do
  let d ← decoder
  let some info := d.stream | fail .headerBeforeSequence
  if d.picture.isSome then
    fail (.headerWithinFrame d.frameCount)
  if d.status = .reset then
    if header.frameType ≠ .keyFrame || header.showExistingFrame then
      return false
    update ({ · with status := .decoding })
  enter .headerParsed
  if header.showExistingFrame then
    showExisting header stamps
    enter .idle
    return false
  let surface ← allocate backend
  enter .surfaceAllocated
  let references := (← decoder).references
  let state ← ofOutcome .state (FrameState.derive info.sequence header references.states)
  call backend (.startFrame { sequence := info.sequence, header, state, surface, references })
  enter .submitted
  update ({ · with picture := some { header, frame := .ofHeader header surface state } })
  return true

/-- Completes a picture that is no longer in progress: it enters the slots that its header selects,
    and is output if its header says so. -/
def finish (picture : CurrentPicture S) (stamps : Timestamps) : Decode β S Unit := do
  call backend .endFrame
  enter .decoded
  let header := picture.header
  update fun d => { d with references := d.references.refresh header.refreshMask picture.frame }
  enter .referencesUpdated
  if header.showFrame then
    output picture.frame header.obuHeader.spatialId stamps
  countFrame
  enter .idle

/-- Hands the tiles of a group to the backend. They have to follow the tiles before them; the last
    ones complete the picture. -/
def tileGroup (group : TileGroup) (stamps : Timestamps) : Decode β S Unit := do
  let d ← decoder
  let some info := d.stream | fail .tilesBeforeSequence
  let some picture := d.picture |
    if d.status = .reset then return else fail .tilesWithoutHeader
  if group.first ≠ picture.tilesDecoded then
    fail (.tileOrder group.first picture.tilesDecoded)
  let tiles ← ofOutcome .tileGroup (group.tiles info.sequence picture.header)
  call backend (.decodeTiles group.data tiles)
  let tilesDecoded ← Checked.unsigned (picture.tilesDecoded + tiles.length)
  let picture := { picture with tilesDecoded }
  if (← picture.header.tileInfo.tileCount) ≤ tilesDecoded then
    update ({ · with picture := none })
    finish backend picture stamps
  else
    update ({ · with picture := some picture })

/-- Whether a unit belongs to the operating point of the stream. -/
def inOperatingPoint (header : ObuHeader) : Decode β S Bool := do
  let d ← decoder
  match d.stream with
  | none => return true
  | some info => (info.sequence.selectedPoint d.operatingPoint).includes header

/-- Processes a unit. Units outside the operating point are skipped, and while the format is not
    supported only sequence headers are let through. -/
def unit (obu : Obu) (stamps : Timestamps) : Decode β S Unit := do
  if !(← inOperatingPoint obu.header) then
    return
  if let .unsupported format := (← decoder).status then
    if !(obu matches .sequenceHeader _) then
      fail (.formatRefused format)
  match obu with
  | .sequenceHeader s => sequenceHeader backend s
  | .frameHeader header =>
    let _ ← frameHeader backend header stamps
  | .redundantFrameHeader header =>
    if (← decoder).picture.isNone then
      let _ ← frameHeader backend header stamps
  | .tileGroup group => tileGroup backend group stamps
  | .frame header group =>
    if ← frameHeader backend header stamps then
      tileGroup backend group stamps
  | .tileList _ => fail .largeScaleTile
  | .temporalDelimiter _ | .metadata _ | .padding _ | .reserved _ => return

/-- Processes units in order, up to the first that fails. -/
def units (stamps : Timestamps) : List Obu → Decode β S Unit
  | [] => return
  | obu :: rest => do
    unit backend obu stamps
    units stamps rest

end Decode

namespace Session

variable {β S : Type}

/-- A session that has not been given anything yet. The client chooses the operating point. -/
def start (backend : β) (operatingPoint : Nat) : Session β S :=
  { decoder := { operatingPoint }, backend }

/-- Gives up the picture in progress. -/
def dropPicture (s : Session β S) : Session β S :=
  { s with
    decoder := { s.decoder with picture := none, phase := .idle }
    journal := s.journal ++ [.failed] }

/-- Decodes a packet. After a unit that fails the picture in progress is dropped and the rest of the
    packet is not looked at. -/
def decode (backend : Backend β S) (packet : Packet) (s : Session β S) :
    Outcome DecodeError Unit × Session β S :=
  match (Decode.units backend packet.stamps packet.obus).run s with
  | (.ok (), s) => (.ok (), s)
  | (.error e, s) => (.error e, s.dropPicture)

/-- Discards the picture in progress and all reference frames. Decoding goes on with a key frame. -/
def flush (s : Session β S) : Session β S :=
  let d := s.decoder
  { s with
    decoder := { d with
      picture := none
      references := Slots.empty
      phase := .idle
      status := if d.status = .decoding then .reset else d.status }
    journal := s.journal ++ [.flushed] }

/-- Takes the oldest event. -/
def nextEvent (s : Session β S) : Option (Event S) × Session β S :=
  (s.decoder.events.head?, { s with decoder := { s.decoder with events := s.decoder.events.tail } })

/-- Takes all events. -/
def drainEvents (s : Session β S) : List (Event S) × Session β S :=
  (s.decoder.events, { s with decoder := { s.decoder with events := [] } })

/-- The calls that the backend accepted since the journal had `n` entries. -/
def acceptedSince (s : Session β S) (n : Nat) : List (Call S) :=
  (s.journal.drop n).filterMap Entry.accepted?

end Session

end Av1Frames
