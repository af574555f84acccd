import Av1Frames.Decoder.Scripted
import Av1Frames.Proofs.Decoder.Ending.Inversion

namespace Av1Frames

variable {β S : Type} {d d' : Decoder S} {stamps : Timestamps} {e : DecodeError}
  {entries : List (Entry S)}

/-- The unit ends the stream: it is a sequence header without a pixel format, and there is no
    picture in progress that it would interrupt. -/
def Decoder.LosesStream (d : Decoder S) (obu : Obu) : Prop :=
  d.picture = none ∧ ∃ s e, obu = .sequenceHeader s ∧ s.pixelFormat = .error e

theorem Decoder.losesStream_sequenceHeader {s : Sequence} :
    d.LosesStream (.sequenceHeader s) ↔ d.picture = none ∧ ∃ e, s.pixelFormat = .error e := by
  constructor
  · rintro ⟨hpicture, s', e, hs, hformat⟩
    obtain rfl := Obu.sequenceHeader.inj hs
    exact ⟨hpicture, e, hformat⟩
  · rintro ⟨hpicture, e, hformat⟩
    exact ⟨hpicture, s, e, rfl, hformat⟩

theorem Decoder.not_losesStream {obu : Obu} (hobu : ∀ s, obu ≠ .sequenceHeader s) :
    ¬ d.LosesStream obu := fun ⟨_, s, _, hs, _⟩ => hobu s hs

/-- What a unit that fails leaves of the decoder before it. -/
structure Decoder.RestoredFrom (d' d : Decoder S) (obu : Obu) : Prop where
  references_eq : d'.references = d.references
  events_eq : d'.events = d.events
  codedResolution_eq : d'.codedResolution = d.codedResolution
  highestSpatialLayer_eq : d'.highestSpatialLayer = d.highestSpatialLayer
  picture_eq : d'.picture = none
  phase_eq : d'.phase = .idle
  stream_eq : ¬ d.LosesStream obu → d'.stream = d.stream
  stream_lost : d.LosesStream obu → d'.stream = none

/-- Apart from the picture in progress, only what the decoder waits for may have changed. -/
def Decoder.Abandons (d d' : Decoder S) : Prop := ∃ status, d' = { d.withoutPicture with status }

theorem Decoder.Abandons.restored {obu : Obu} (h : d.Abandons d') (hobu : ¬ d.LosesStream obu) :
    d'.RestoredFrom d obu := by
  obtain ⟨status, rfl⟩ := h
  exact ⟨rfl, rfl, rfl, rfl, rfl, rfl, fun _ => rfl, fun hloses => absurd hloses hobu⟩

theorem HeaderEnding.abandons {header : Header}
    (h : HeaderEnding d header stamps (.error (.error e)) entries d') : d.Abandons d' := by
  cases h with
  | rejected => exact ⟨_, rfl⟩
  | failed => exact ⟨_, rfl⟩
  | refused => exact ⟨_, rfl⟩

theorem TilesEnding.abandons {group : TileGroup}
    (h : TilesEnding d group stamps (.error (.error e)) entries d') : d.Abandons d' := by
  cases h with
  | failed => exact ⟨_, rfl⟩
  | completed _ _ _ hfinish =>
    cases hfinish with
    | refused => exact ⟨_, rfl⟩

theorem SequenceEnding.restored {s : Sequence}
    (h : SequenceEnding d s (.error (.error e)) entries d') :
    d'.RestoredFrom d (.sequenceHeader s) := by
  cases h with
  | formatless hpicture hformat =>
    have hloses := Decoder.losesStream_sequenceHeader.mpr ⟨hpicture, _, hformat⟩
    exact ⟨rfl, rfl, rfl, rfl, rfl, rfl, fun hkeeps => absurd hloses hkeeps, fun _ => rfl⟩
  | unsupported hpicture hformat =>
    refine Decoder.Abandons.restored ⟨_, rfl⟩ fun hloses => ?_
    obtain ⟨-, e, hnone⟩ := Decoder.losesStream_sequenceHeader.mp hloses
    exact nomatch hformat.symm.trans hnone
  | failed hformat =>
    refine Decoder.Abandons.restored ⟨_, rfl⟩ fun hloses => ?_
    obtain ⟨hpicture, e, hnone⟩ := Decoder.losesStream_sequenceHeader.mp hloses
    obtain ⟨format, hformat⟩ := hformat hpicture
    exact nomatch hformat.symm.trans hnone

theorem DispatchEnding.restored {obu : Obu}
    (h : DispatchEnding d stamps obu (.error (.error e)) entries d') : d'.RestoredFrom d obu := by
  cases h with
  | tileList =>
    exact Decoder.Abandons.restored ⟨_, rfl⟩ (Decoder.not_losesStream fun _ h => by cases h)
  | sequence hsequence => exact hsequence.restored
  | headerFailed hobu hheader =>
    refine hheader.abandons.restored (Decoder.not_losesStream ?_)
    rintro s rfl
    exact nomatch hobu
  | tiles htiles =>
    exact htiles.abandons.restored (Decoder.not_losesStream fun _ h => by cases h)
  | frame hheader htiles =>
    cases hheader with
    | started =>
      -- The picture that the header has started is given up again.
      obtain ⟨status, rfl⟩ := htiles.abandons
      exact Decoder.Abandons.restored ⟨status, rfl⟩ (Decoder.not_losesStream fun _ h => by cases h)

theorem UnitEnding.restored {obu : Obu}
    (h : UnitEnding d stamps obu (.error (.error e)) entries d') : d'.RestoredFrom d obu := by
  cases h with
  | unsupported hstatus hobu =>
    exact Decoder.Abandons.restored ⟨_, rfl⟩ (Decoder.not_losesStream hobu)
  | dispatched _ _ hdispatch => exact hdispatch.restored

/-- Units fail at the first one that fails. -/
theorem Decode.exists_failing_unit {backend : Backend β S} {obus : List Obu} {s s' : Session β S}
    {f : Failure DecodeError} (hrun : (units backend stamps obus).run s = (.error f, s')) :
    ∃ before obu rest reached, obus = before ++ obu :: rest ∧
      (units backend stamps before).run s = (.ok (), reached) ∧
      (unit backend obu stamps).run reached = (.error f, s') := by
  induction obus generalizing s with
  | nil => exact nomatch hrun
  | cons obu rest ih =>
    rcases hunit : (unit backend obu stamps).run s with ⟨f' | _, s₁⟩
    · obtain ⟨hf, rfl⟩ := Prod.mk.inj ((run_bind_of_error hunit).symm.trans hrun)
      obtain rfl := Except.error.inj hf
      exact ⟨[], obu, rest, s, rfl, rfl, hunit⟩
    · have hrest : (units backend stamps rest).run s₁ = (.error f, s') :=
        (run_bind_of_ok hunit).symm.trans hrun
      obtain ⟨before, failing, later, reached, rfl, hbefore, hfailing⟩ := ih hrest
      exact ⟨obu :: before, failing, later, reached, rfl,
        (run_bind_of_ok hunit).trans hbefore, hfailing⟩

namespace Session

/-- A packet that fails at one of its units leaves the decoder as the units before it left it, but
    for the picture in progress. -/
theorem restored_of_decode_error {s : Session β S} {backend : Backend β S} {packet : Packet}
    (hfails : (s.decode backend packet).1 = .error (.error e)) :
    ∃ before obu rest reached, packet.obus = before ++ obu :: rest ∧
      s.decode backend { packet with obus := before } = (.ok (), reached) ∧
      (reached.decode backend { packet with obus := [obu] }).1 = .error (.error e) ∧
      (s.decode backend packet).2.decoder.RestoredFrom reached.decoder obu := by
  rcases hrun : (Decode.units backend packet.stamps packet.obus).run s with ⟨f | _, s'⟩
  · have hdecode : s.decode backend packet = (.error f, s'.dropPicture) := by rw [decode, hrun]
    rw [hdecode] at hfails ⊢
    obtain rfl : f = .error e := Except.error.inj hfails
    obtain ⟨before, obu, rest, reached, hobus, hbefore, hfailing⟩ :=
      Decode.exists_failing_unit hrun
    refine ⟨before, obu, rest, reached, hobus, ?_, ?_, ?_⟩
    · rw [decode, hbefore]
    · have hone :
          (Decode.units backend packet.stamps [obu]).run reached = (.error (.error e), s') :=
        run_bind_of_error hfailing
      rw [decode, hone]
    · obtain ⟨_, -, hend⟩ := Leads.error Decode.unit_endsBy hfailing
      exact hend.restored
  · rw [decode, hrun] at hfails
    cases hfails

/-- A key frame that starts with its second tile is given up, and so is the packet. -/
theorem restored_of_wrong_tile_order :
    let packet : Packet := { obus :=
      [.sequenceHeader Script.sequence, .frameHeader Script.keyFrame, .tileGroup { first := 1 }] }
    let failed := Script.session.decode Script.backend packet
    failed.1 = .error (.error (.tileOrder 1 0)) ∧
      ∃ before obu rest reached, packet.obus = before ++ obu :: rest ∧
        Script.session.decode Script.backend { obus := before } = (.ok (), reached) ∧
        (reached.decode Script.backend { obus := [obu] }).1 = .error (.error (.tileOrder 1 0)) ∧
        failed.2.decoder.RestoredFrom reached.decoder obu := by
  intro packet failed
  have hfails : failed.1 = .error (.error (.tileOrder 1 0)) := by decide +kernel
  exact ⟨hfails, restored_of_decode_error hfails⟩

/-- A sequence header without a pixel format that interrupts a frame is refused before its format is
    looked at. The stream stays. -/
theorem stream_of_formatless_within_frame :
    let started := (Script.session.decode Script.backend
      { obus := [.sequenceHeader Script.sequence, .frameHeader Script.keyFrame] }).2
    let failed := started.decode Script.backend { obus := [.sequenceHeader Script.formatless] }
    Script.formatless.pixelFormat = .error (.profile 3) ∧
      failed.1 = .error (.error (.sequenceWithinFrame 0)) ∧
      failed.2.decoder.stream = some Script.info := by
  decide +kernel

end Session

end Av1Frames
