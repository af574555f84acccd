import Av1Frames.Proofs.Stateful
import Av1Frames.Decoder.Process

namespace Av1Frames.Decode

variable {β S α : Type} {backend : Backend β S} {s : Session β S}
  {E : Failure DecodeError → Session β S → Prop}

theorem leads_fail {e : DecodeError} {Q : α → Session β S → Prop} :
    Leads (fail e : Decode β S α) s Q E ↔ E (.error e) s := leads_throw

theorem leads_decoder {Q : Decoder S → Session β S → Prop} :
    Leads decoder s Q E ↔ Q s.decoder s := by
  rw [decoder, leads_bind, leads_get, leads_pure]

theorem leads_update {f : Decoder S → Decoder S} {Q : Unit → Session β S → Prop} :
    Leads (update f) s Q E ↔ Q () { s with decoder := f s.decoder } := leads_modify

theorem leads_note {entry : Entry S} {Q : Unit → Session β S → Prop} :
    Leads (note entry) s Q E ↔ Q () { s with journal := s.journal ++ [entry] } := leads_modify

theorem leads_enter {phase : Phase} {Q : Unit → Session β S → Prop} :
    Leads (enter phase) s Q E ↔ Q () { s with decoder := { s.decoder with phase } } := leads_update

/-- A result that is computed outside the session leaves the session as it is. -/
theorem leads_ofOutcome {ε : Type} {f : ε → DecodeError} {x : Outcome ε α}
    {Q : α → Session β S → Prop} (hok : ∀ a, x = .ok a → Q a s)
    (herror : ∀ e : Failure ε, E (e.map f) s) : Leads (ofOutcome f x) s Q E := by
  cases x with
  | ok a => exact leads_of_run rfl (hok a rfl)
  | error e => exact leads_throw.mpr (herror _)

/-- A call is entered into the journal with its answer, and fails if it is refused. -/
theorem leads_call {c : Call S} {Q : Unit → Session β S → Prop}
    (hok : ∀ state, backend.answer s.backend c = (.ok (), state) →
      Q () { s with backend := state, journal := s.journal ++ [.called c (.ok ())] })
    (herror : ∀ e state, backend.answer s.backend c = (.error e, state) →
      E (.error (.backend e))
        { s with backend := state, journal := s.journal ++ [.called c (.error e)] }) :
    Leads (call backend c) s Q E := by
  rw [call, leads_bind, leads_get]
  rcases hanswer : backend.answer s.backend c with ⟨result, state⟩
  dsimp only
  rw [leads_bind, leads_set, leads_bind, leads_note]
  cases result with
  | ok _ => exact leads_pure.mpr (hok state hanswer)
  | error e => exact leads_fail.mpr (herror e state hanswer)

theorem leads_allocate {Q : S → Session β S → Prop}
    (hsome : ∀ surface state, backend.allocate s.backend = (some surface, state) →
      Q surface { s with backend := state })
    (hnone : ∀ state, backend.allocate s.backend = (none, state) →
      E (.error .noSurface) { s with backend := state }) :
    Leads (allocate backend) s Q E := by
  rw [allocate, leads_bind, leads_get]
  rcases hallocate : backend.allocate s.backend with ⟨surface, state⟩
  dsimp only
  rw [leads_bind, leads_set]
  cases surface with
  | some surface => exact leads_pure.mpr (hsome surface state hallocate)
  | none => exact leads_fail.mpr (hnone state hallocate)

theorem leads_call_of_ok {c : Call S} {state : β} {Q : Unit → Session β S → Prop}
    (hanswer : backend.answer s.backend c = (.ok (), state))
    (h : Q () { s with backend := state, journal := s.journal ++ [.called c (.ok ())] }) :
    Leads (call backend c) s Q E := by
  refine leads_call (fun state' h' => ?_) fun e state' h' => ?_
  · obtain rfl := (Prod.mk.inj (hanswer.symm.trans h')).2
    exact h
  · exact nomatch (Prod.mk.inj (hanswer.symm.trans h')).1

theorem leads_allocate_of_some {surface : S} {state : β} {Q : S → Session β S → Prop}
    (hallocate : backend.allocate s.backend = (some surface, state))
    (h : Q surface { s with backend := state }) : Leads (allocate backend) s Q E := by
  refine leads_allocate (fun surface' state' h' => ?_) fun state' h' => ?_
  · obtain ⟨hsurface, rfl⟩ := Prod.mk.inj (hallocate.symm.trans h')
    obtain rfl := Option.some.inj hsurface
    exact h
  · exact nomatch (Prod.mk.inj (hallocate.symm.trans h')).1

theorem leads_ofOutcome_of_ok {ε : Type} {f : ε → DecodeError} {x : Outcome ε α} {a : α}
    {Q : α → Session β S → Prop} (hx : x = .ok a) (h : Q a s) : Leads (ofOutcome f x) s Q E := by
  subst hx
  exact leads_of_run rfl h

/-- What a frame header does when no other picture is in progress and its frame is not skipped. -/
def beginFrame (backend : Backend β S) (info : StreamInfo) (header : Header)
    (stamps : Timestamps) : Decode β S Bool := do
  enter .headerParsed
  if header.showExistingFrame then
    showExisting header stamps
    enter .idle
    return false
  let surface ← allocate backend
  enter .surfaceAllocated
  let references := (← decoder).references
  let state ← ofOutcome .state (FrameState.derive info.sequence header references.states)
  call backend (.startFrame { sequence := info.sequence, header, state, surface, references })
  enter .submitted
  update ({ · with picture := some { header, frame := .ofHeader header surface state } })
  return true

theorem frameHeader_eq {header : Header} {stamps : Timestamps} :
    frameHeader backend header stamps = (do
      let d ← decoder
      let some info := d.stream | fail .headerBeforeSequence
      if d.picture.isSome then
        fail (.headerWithinFrame d.frameCount)
      if d.status = .reset then
        if header.frameType ≠ .keyFrame || header.showExistingFrame then
          return false
        update ({ · with status := .decoding })
      beginFrame backend info header stamps) := rfl

/-- What a tile group does whose tiles are found and come next. -/
def takeTiles (backend : Backend β S) (group : TileGroup) (picture : CurrentPicture S)
    (tiles : List Tile) (stamps : Timestamps) : Decode β S Unit := do
  call backend (.decodeTiles group.data tiles)
  let tilesDecoded ← Checked.unsigned (picture.tilesDecoded + tiles.length)
  let picture := { picture with tilesDecoded }
  if (← picture.header.tileInfo.tileCount) ≤ tilesDecoded then
    update ({ · with picture := none })
    finish backend picture stamps
  else
    update ({ · with picture := some picture })

theorem tileGroup_eq {group : TileGroup} {stamps : Timestamps} :
    tileGroup backend group stamps = (do
      let d ← decoder
      let some info := d.stream | fail .tilesBeforeSequence
      let some picture := d.picture |
        if d.status = .reset then return else fail .tilesWithoutHeader
      if group.first ≠ picture.tilesDecoded then
        fail (.tileOrder group.first picture.tilesDecoded)
      let tiles ← ofOutcome .tileGroup (group.tiles info.sequence picture.header)
      takeTiles backend group picture tiles stamps) := rfl

/-- Tiles are handed over and counted. If they are the last ones, the picture is completed. -/
theorem leads_takeTiles {group : TileGroup} {picture : CurrentPicture S} {tiles : List Tile}
    {stamps : Timestamps} {total : Nat} {Q : Unit → Session β S → Prop}
    (htotal : picture.header.tileInfo.tileCount = .ok total)
    (hle : picture.tilesDecoded + tiles.length ≤ total)
    (hrefused : ∀ e state,
      backend.answer s.backend (.decodeTiles group.data tiles) = (.error e, state) →
        E (.error (.backend e)) { s with
          backend := state
          journal := s.journal ++ [.called (.decodeTiles group.data tiles) (.error e)] })
    (hmore : ∀ state,
      backend.answer s.backend (.decodeTiles group.data tiles) = (.ok (), state) →
        picture.tilesDecoded + tiles.length < total → Q () {
          decoder := { s.decoder with
            picture := some { picture with
              tilesDecoded := picture.tilesDecoded + tiles.length } }
          backend := state
          journal := s.journal ++ [.called (.decodeTiles group.data tiles) (.ok ())] })
    (hlast : ∀ state,
      backend.answer s.backend (.decodeTiles group.data tiles) = (.ok (), state) →
        picture.tilesDecoded + tiles.length = total →
          Leads (finish backend
            { picture with tilesDecoded := picture.tilesDecoded + tiles.length } stamps) {
              decoder := { s.decoder with picture := none }
              backend := state
              journal := s.journal ++ [.called (.decodeTiles group.data tiles) (.ok ())] } Q E) :
    Leads (takeTiles backend group picture tiles stamps) s Q E := by
  rw [takeTiles, leads_bind]
  refine leads_call (fun state hanswer => ?_) hrefused
  -- The sum cannot overflow: it is at most the number of tiles of the frame.
  refine leads_checked_bind (Checked.unsigned_add_of_le htotal hle)
    (leads_checked_bind htotal ?_)
  refine leads_ite (fun hall => ?_) fun hmissing => ?_
  · rw [leads_bind, leads_update]
    exact hlast state hanswer (Nat.le_antisymm hle hall)
  · exact leads_update.mpr (hmore state hanswer (Nat.lt_of_not_le hmissing))

/-- What a unit does that is not skipped. -/
def dispatch (backend : Backend β S) (obu : Obu) (stamps : Timestamps) : Decode β S Unit :=
  match obu with
  | .sequenceHeader s => sequenceHeader backend s
  | .frameHeader header => do
    let _ ← frameHeader backend header stamps
  | .redundantFrameHeader header => do
    if (← decoder).picture.isNone then
      let _ ← frameHeader backend header stamps
  | .tileGroup group => tileGroup backend group stamps
  | .frame header group => do
    if ← frameHeader backend header stamps then
      tileGroup backend group stamps
  | .tileList _ => fail .largeScaleTile
  | .temporalDelimiter _ | .metadata _ | .padding _ | .reserved _ => return

/-- What a unit does that belongs to the operating point. -/
def admitted (backend : Backend β S) (obu : Obu) (stamps : Timestamps) : Decode β S Unit := do
  if let .unsupported format := (← decoder).status then
    if !(obu matches .sequenceHeader _) then
      fail (.formatRefused format)
  dispatch backend obu stamps

theorem unit_eq {obu : Obu} {stamps : Timestamps} :
    unit backend obu stamps = (do
      if !(← inOperatingPoint obu.header) then
        return
      admitted backend obu stamps) := rfl

end Av1Frames.Decode

namespace Av1Frames.Session

variable {β S : Type} {backend : Backend β S} {s : Session β S}

/-- What units lead to, seen from outside: after an error the picture is dropped. -/
theorem decode_of_leads (packet : Packet) {R : Outcome DecodeError Unit → Session β S → Prop}
    (h : Leads (Decode.units backend packet.stamps packet.obus) s (fun _ s' => R (.ok ()) s')
      fun e s' => R (.error e) s'.dropPicture) :
    R (s.decode backend packet).1 (s.decode backend packet).2 := by
  rcases hrun : (Decode.units backend packet.stamps packet.obus).run s with ⟨e | _, s'⟩
  · rw [decode, hrun]
    exact h.error hrun
  · rw [decode, hrun]
    exact h.ok hrun

theorem decode_of_leads_ok (packet : Packet) {P : Session β S → Prop}
    (h : Leads (Decode.units backend packet.stamps packet.obus) s (fun _ s' => P s')
      fun _ _ => False) :
    (s.decode backend packet).1 = .ok () ∧ P (s.decode backend packet).2 :=
  decode_of_leads packet (R := fun r s' => r = .ok () ∧ P s')
    (h.mono (fun _ _ h' => ⟨rfl, h'⟩) fun _ _ h' => h'.elim)

end Av1Frames.Session
