import Av1Frames.Decoder.Scripted
import Av1Frames.Proofs.Decoder.Progress
import Av1Frames.Proofs.Reference

namespace Av1Frames

variable {β S : Type}

/-- The frame inherits nothing: it is a key frame without a primary reference, and its film grain,
    if it has any, is its own. -/
structure Header.StandsAlone (header : Header) (s : Sequence) : Prop where
  frameType : header.frameType = .keyFrame
  regular : header.showExistingFrame = false
  primary : header.primaryRefFrame = primaryRefNone
  grain : s.filmGrainParamsPresent = true → header.filmGrain.applyGrain = true →
    header.filmGrain.updateGrain = true

/-- The group has all tiles of a frame. -/
structure TileGroup.Whole (group : TileGroup) (t : TileInfo) : Prop where
  first : group.first = 0
  last : group.last + 1 = t.cols * t.rows

/-- The state of a key frame that inherits nothing. -/
def FrameState.ofKeyFrame (s : Sequence) (header : Header) : FrameState where
  orderHint := header.orderHint
  filmGrain :=
    if s.filmGrainParamsPresent && header.filmGrain.applyGrain then header.filmGrain else {}

theorem FrameState.derive_keyFrame {s : Sequence} {header : Header}
    (hheader : header.StandsAlone s) (slots : StateSlots) :
    derive s header slots = .ok (ofKeyFrame s header) := by
  have hintra : header.isIntra = true := by
    rw [Header.isIntra, hheader.frameType]
    rfl
  have hprimary : (primary? header slots).mapError StateError.primary = .ok none :=
    mapError_eq_ok_iff.mpr (if_pos hheader.primary)
  have hwarps : resolveWarps header none = .ok (Vector.replicate 8 {}) := if_pos hintra
  have hgrain : resolveGrain s header slots = .ok (ofKeyFrame s header).filmGrain := by
    unfold resolveGrain ofKeyFrame
    dsimp only
    cases hpresent : s.filmGrainParamsPresent with
    | false => rfl
    | true =>
      cases happly : header.filmGrain.applyGrain with
      | false => rfl
      | true => exact if_pos (hheader.grain hpresent happly)
  unfold derive
  rw [hprimary, ok_bind, hwarps, hgrain, hintra]
  rfl

namespace Decode

variable {backend : Backend β S} {s : Session β S} {E : Failure DecodeError → Session β S → Prop}
  {info : StreamInfo} {header : Header} {group : TileGroup} {stamps : Timestamps}
  {surface : S} {allocated state : β} {started : Picture S}

/-- A key frame that inherits nothing is started with what the slots happen to hold. -/
theorem leads_beginFrame_keyFrame {Q : Bool → Session β S → Prop}
    (hheader : header.StandsAlone info.sequence)
    (hallocate : backend.allocate s.backend = (some surface, allocated))
    (hstarted : started = ⟨info.sequence, header, .ofKeyFrame info.sequence header, surface,
      s.decoder.references⟩)
    (hanswer : backend.answer allocated (.startFrame started) = (.ok (), state))
    (h : Q true {
      decoder := s.decoder.withPicture
        { header, frame := .ofHeader header surface started.state }
      backend := state
      journal := s.journal ++ [.called (.startFrame started) (.ok ())] }) :
    Leads (beginFrame backend info header stamps) { s with decoder := s.decoder.awake } Q E := by
  subst hstarted
  rw [beginFrame, leads_bind, leads_enter, hheader.regular, if_neg Bool.false_ne_true, leads_bind]
  refine leads_allocate_of_some hallocate ?_
  rw [leads_bind, leads_enter, leads_bind, leads_decoder, leads_bind]
  refine leads_ofOutcome_of_ok (FrameState.derive_keyFrame hheader _) ?_
  rw [leads_bind]
  refine leads_call_of_ok hanswer ?_
  rw [leads_bind, leads_enter, leads_bind, leads_update, leads_pure]
  exact h

theorem leads_frameHeader_keyFrame {Q : Bool → Session β S → Prop}
    (hstream : s.decoder.stream = some info) (hpicture : s.decoder.picture = none)
    (hheader : header.StandsAlone info.sequence)
    (hallocate : backend.allocate s.backend = (some surface, allocated))
    (hstarted : started = ⟨info.sequence, header, .ofKeyFrame info.sequence header, surface,
      s.decoder.references⟩)
    (hanswer : backend.answer allocated (.startFrame started) = (.ok (), state))
    (h : Q true {
      decoder := s.decoder.withPicture
        { header, frame := .ofHeader header surface started.state }
      backend := state
      journal := s.journal ++ [.called (.startFrame started) (.ok ())] }) :
    Leads (frameHeader backend header stamps) s Q E := by
  have hbegin : Leads (beginFrame backend info header stamps)
      { s with decoder := s.decoder.awake } Q E :=
    leads_beginFrame_keyFrame hheader hallocate hstarted hanswer h
  rw [frameHeader_eq, leads_bind, leads_decoder, hstream]
  dsimp only
  rw [hpicture, if_neg (by simp)]
  refine leads_ite (fun hreset => ?_) fun hrunning => ?_
  · rw [if_neg (by simp [hheader.frameType, hheader.regular]), leads_bind, leads_update]
    rwa [Decoder.awake, if_pos hreset] at hbegin
  · rwa [Decoder.awake, if_neg hrunning] at hbegin

/-- A group with all tiles completes the picture that was just started. -/
theorem leads_tileGroup_whole {frame : Frame S} {tiles : List Tile} {decoded : β}
    {Q : Unit → Session β S → Prop} (hstream : s.decoder.stream = some info)
    (hpicture : s.decoder.picture = some { header, frame })
    (hcount : s.decoder.frameCount < 0xFFFFFFFF) (hgroup : group.Whole header.tileInfo)
    (htiles : group.tiles info.sequence header = .ok tiles)
    (hdecoded : backend.answer s.backend (.decodeTiles group.data tiles) = (.ok (), decoded))
    (hended : backend.answer decoded .endFrame = (.ok (), state))
    (h : Q () {
      decoder := (({ s.decoder with picture := none } : Decoder S).withFinished
        { header, frame } stamps).counted
      backend := state
      journal := s.journal ++ [.called (.decodeTiles group.data tiles) (.ok ())] ++
        [.called .endFrame (.ok ())] }) :
    Leads (tileGroup backend group stamps) s Q E := by
  have hlast := hgroup.last
  refine leads_tileGroup_of_tiles hstream hpicture hgroup.first htiles hdecoded
    (fun hmore => absurd hlast hmore.ne) fun _ => ?_
  exact leads_finish_of_ok hended (fun _ => h) fun hfull => absurd hcount hfull.not_gt

end Decode

namespace Session

/-- Whatever a decoder has been through: when it has a stream of a supported format and no picture
    in progress, a key frame that inherits nothing and comes with all its tiles is decoded, fills
    all slots, and is output unless it is hidden or in a spatial layer below the highest one. -/
theorem keyFrame_recovers {s : Session β S} {backend : Backend β S} {info : StreamInfo}
    {header : Header} {group : TileGroup} {tiles : List Tile} {surface : S} {allocated : β}
    (stamps : Timestamps) (hstream : s.decoder.stream = some info)
    (hsupported : ∀ format, s.decoder.status ≠ .unsupported format)
    (hpicture : s.decoder.picture = none) (hcount : s.decoder.frameCount < 0xFFFFFFFF)
    (hincluded : s.decoder.Includes header.obuHeader) (hheader : header.StandsAlone info.sequence)
    (hgroup : group.Whole header.tileInfo)
    (htiles : group.tiles info.sequence header = .ok tiles)
    (hallocate : backend.allocate s.backend = (some surface, allocated)) :
    let state := FrameState.ofKeyFrame info.sequence header
    let frame : Frame S := .ofHeader header surface state
    let calls : List (Call S) := [
      .startFrame ⟨info.sequence, header, state, surface, s.decoder.references⟩,
      .decodeTiles group.data tiles, .endFrame]
    backend.Accepts allocated calls →
      ∃ s', s.decode backend ⟨stamps, [.frame header group]⟩ = (.ok (), s') ∧
        s'.journal = s.journal ++ calls.map (.called · (.ok ())) ∧
        (∀ i < 8, s'.decoder.references.content? i = some frame) ∧
        (state.deltaEnabled = true ∧ state.deltas = {} ∧ state.warps = Vector.replicate 8 {}) ∧
        s'.decoder.events = s.decoder.events ++
          if header.showFrame && !s.decoder.highestSpatialLayer.any (header.obuHeader.spatialId < ·)
          then [.frameReady {
            surface, stamps, spatialId := header.obuHeader.spatialId
            resolution := ⟨header.upscaledWidth, header.frameHeight⟩ }]
          else [] := by
  rintro state frame calls ⟨started, hstarted, decoded, hdecoded, ended, hended, -⟩
  let d : Decoder S := { s.decoder.awake with picture := none, phase := .submitted }
  let final : Session β S := {
    decoder := (d.withFinished { header, frame } stamps).counted
    backend := ended
    journal := s.journal ++ calls.map (.called · (.ok ())) }
  have hunits : Leads (Decode.units backend stamps [.frame header group]) s
      (fun _ s' => s' = final) fun _ _ => False := by
    rw [Decode.units, leads_bind]
    refine Decode.leads_unit_of_included hincluded hsupported ?_
    rw [Decode.dispatch, leads_bind]
    refine Decode.leads_frameHeader_keyFrame hstream hpicture hheader hallocate rfl hstarted ?_
    rw [if_pos rfl]
    refine Decode.leads_tileGroup_whole hstream rfl hcount hgroup htiles hdecoded hended ?_
    rw [Decode.units, leads_pure]
    simp only [List.append_assoc]
    rfl
  obtain ⟨_, _, hrun, rfl⟩ := hunits.exists_ok
  refine ⟨final, by rw [decode, hrun], rfl, fun i hi => ?_, ⟨rfl, rfl, rfl⟩, ?_⟩
  · change (s.decoder.references.refresh header.refreshMask frame).content? i = some frame
    rw [Header.refreshMask, if_pos hheader.frameType]
    exact Slots.content?_refresh_allSlots _ _ hi
  · refine congrArg (s.decoder.events ++ ·) ?_
    change (if header.showFrame then
      if s.decoder.highestSpatialLayer.any (header.obuHeader.spatialId < ·) then [] else _
      else []) = _
    cases header.showFrame <;>
      cases s.decoder.highestSpatialLayer.any (header.obuHeader.spatialId < ·) <;> rfl

/-- A key frame after one that was given up, and after a flush. -/
theorem keyFrame_recovers_flushed :
    let s := Script.session.run [
      .decode Script.backend { obus :=
        [.sequenceHeader Script.sequence, .frameHeader Script.keyFrame, .tileList {}] },
      .flush]
    let header : Header := { primaryRefFrame := primaryRefNone, showFrame := true }
    let group : TileGroup := { data := [0], dataSize := 1 }
    let frame : Frame Nat := .ofHeader header 1 {}
    ∃ s', s.decode Script.backend ⟨⟨3, 4⟩, [.frame header group]⟩ = (.ok (), s') ∧
      (∀ i < 8, s'.decoder.references.content? i = some frame) ∧
      s'.decoder.events = s.decoder.events ++
        [.frameReady { surface := 1, stamps := ⟨3, 4⟩, spatialId := 0, resolution := ⟨0, 0⟩ }] := by
  intro s header group frame
  have hstream : s.decoder.stream = some Script.info := by decide +kernel
  have hstatus : s.decoder.status = .reset := by decide +kernel
  have hpoint : (Script.sequence.selectedPoint s.decoder.operatingPoint).includes header.obuHeader =
      .ok true := by decide +kernel
  have htiles : group.tiles Script.sequence header = .ok [⟨0, 0, 1, 0, 0, 1, 1⟩] := by
    decide +kernel
  have hallocate : Script.backend.allocate s.backend = (some 1, { surfaces := 2 }) := by
    decide +kernel
  have hlayer : s.decoder.highestSpatialLayer = none := by decide +kernel
  have hincluded : s.decoder.Includes header.obuHeader := fun info hinfo =>
    Option.some.inj (hstream.symm.trans hinfo) ▸ hpoint
  obtain ⟨s', hdecode, -, hslots, -, hevents⟩ := keyFrame_recovers ⟨3, 4⟩ hstream
    (fun format hformat => nomatch hstatus.symm.trans hformat) (by decide +kernel)
    (by decide +kernel) hincluded ⟨rfl, rfl, rfl, fun h => nomatch h⟩ ⟨rfl, rfl⟩ htiles hallocate
    ⟨_, rfl, _, rfl, _, rfl, trivial⟩
  rw [hlayer] at hevents
  exact ⟨s', hdecode, hslots, hevents⟩

end Session

end Av1Frames
